import LogicalPlan.Lowering.Sql
import LogicalPlan.Document.Sql
import LogicalPlan.Document.Algebra

/-!
# Grammars

Queries are written in one of two grammars. A document is loaded by the rules of one grammar and
compiled by the rules of the same or, by mistake, of the other one; the latter is refused.
-/

namespace LogicalPlan

/-- The languages that queries are written in. -/
inductive Grammar where
  | sql
  | algebra
  deriving DecidableEq, Inhabited

/-- A loaded query of either grammar. -/
inductive LoadedQuery where
  | sql (q : Query.Sql)
  | algebra (q : Query.Algebra)
  deriving DecidableEq, Inhabited

namespace LoadedQuery

/-- The name of the node at the root. -/
def kindName : LoadedQuery → String
  | .sql q => q.kindName
  | .algebra q => q.kindName

/-- The query as an exported value, either the bare node or inside its root. -/
def toValue (isNode : Bool) : LoadedQuery → Value
  | .sql q => if isNode then q.toValue else q.rootValue
  | .algebra q => if isNode then q.toValue else q.rootValue

/-- The annotations of the node at the root: its kind, its origin and its declared metadata. -/
def annotations : LoadedQuery → String × Origin × Members
  | .sql q => (q.kindName, q.origin, [])
  | .algebra q => (q.kindName, q.header.origin, q.header.metadata)

end LoadedQuery

namespace Grammar

/-- Load a document: a bare node, or a root that contains the node. -/
def load (grammar : Grammar) (isNode : Bool) (doc : Value) : Outcome LoadedQuery :=
  match grammar, isNode with
  | .sql, true => (Document.loadSql doc).map .sql
  | .sql, false => (Document.loadSqlRoot doc).map .sql
  | .algebra, true => (Document.loadAlgebra doc).map .algebra
  | .algebra, false => (Document.loadAlgebraRoot doc).map .algebra

/-- Compile a loaded query. A query of the other grammar is refused at its first node; for SQL, the
root counts as a node. -/
def compile (grammar : Grammar) (isNode : Bool) (catalog : Catalog) (settings : Settings)
    (query : LoadedQuery) : Traced Plan :=
  match grammar, query with
  | .sql, .sql q => q.compile catalog settings
  | .algebra, .algebra q => q.compile catalog settings
  | .sql, .algebra q =>
    let kind := if isNode then q.kindName else "RelalgRoot"
    Traced.ofOutcome (.error (.unsupported ("SQL node " ++ kind)))
  | .algebra, .sql q =>
    Traced.ofOutcome (.error (.unsupported ("relational algebra node " ++ q.kindName)))

/-- Load a document and compile it. -/
def compileDocument (grammar : Grammar) (isNode : Bool) (catalog : Catalog) (settings : Settings)
    (doc : Value) : Outcome Plan := do
  let query ← grammar.load isNode doc
  (grammar.compile isNode catalog settings query).result

end Grammar

end LogicalPlan
