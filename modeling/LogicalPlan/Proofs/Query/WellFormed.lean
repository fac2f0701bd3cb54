import LogicalPlan.Lowering.Sql

/-!
# Well-formed queries

Attributes of a query are dynamic values. A query is well typed if each of them is of the kind that
its grammar declares, and well formed if, in addition, its parts have positions, its names are not
empty and its expressions can be lowered. Both are instances of one inspection by a `Standard`.

## Implementation notes

Of the origins in a query only those of nodes, clauses and value expressions are listed: the
positions of column references, sort entries and entries of a SELECT list are never reported.
-/

namespace LogicalPlan

namespace Value

/-- The value is a text. -/
def isText : Value → Bool
  | .string _ => true
  | _ => false

/-- The value is a text that is not empty. -/
def isName : Value → Bool
  | .string s => s != ""
  | _ => false

/-- The value is a text or missing. -/
def isOptionalText : Value → Bool
  | .null | .string _ => true
  | _ => false

/-- The value is an integer. Truth values are integers too. -/
def isInteger (v : Value) : Bool :=
  v.toInt?.isSome

theorem eq_string_of_isText {v : Value} (h : v.isText = true) : ∃ s, v = .string s := by
  cases v with
  | string s => exact ⟨s, rfl⟩
  | _ => cases h

theorem isHashable_of_isText {v : Value} (h : v.isText = true) : v.isHashable = true := by
  obtain ⟨s, rfl⟩ := eq_string_of_isText h
  rfl

theorem isText_of_isName {v : Value} (h : v.isName = true) : v.isText = true := by
  cases v with
  | string s => rfl
  | _ => cases h

theorem isHashable_of_isOptionalText {v : Value} (h : v.isOptionalText = true) :
    v.isHashable = true := by
  cases v with
  | null => rfl
  | string s => rfl
  | _ => cases h

theorem eq_of_isInteger {v : Value} (h : v.isInteger = true) :
    (∃ b, v = .bool b) ∨ ∃ i, v = .int i := by
  cases v with
  | bool b => exact .inl ⟨b, rfl⟩
  | int i => exact .inr ⟨i, rfl⟩
  | _ => cases h

theorem isHashable_of_isInteger {v : Value} (h : v.isInteger = true) : v.isHashable = true := by
  rcases eq_of_isInteger h with ⟨b, rfl⟩ | ⟨i, rfl⟩ <;> rfl

end Value

/-- The names of all relations of the catalog are texts. -/
def Catalog.isWellTyped (catalog : Catalog) : Bool :=
  catalog.all fun entry => entry.2.2.name.isText

/-- The relation has a text as its name, and a schema whose names and aliases can be keys. -/
def Relation.isWellFormed (base : Relation) : Bool :=
  base.name.isText &&
    base.schema.any (·.columns.all fun col => col.name.isHashable && col.relAlias.isHashable)

/-- All relations of the catalog are well formed. -/
def Catalog.isWellFormed (catalog : Catalog) : Bool :=
  catalog.all fun entry => entry.2.2.isWellFormed

namespace Query

namespace Term

mutual

/-- Types and functions are texts, and so they are in nested expressions; literals are arbitrary. -/
def isTyped : Term → Bool
  | .mk _ datatype func args =>
    datatype.isText && func.isText &&
      (func == Expr.constantName || datatype == .string "null" && func == columnName
        || areTyped args)

/-- The nested expressions among arguments are typed. -/
def areTyped : List TermArgument → Bool
  | [] => true
  | .literal _ :: as => areTyped as
  | .nested t :: as => isTyped t && areTyped as

end

/-- The arguments name a column, possibly with an alias. -/
def nameColumn (isReference : Value → Bool) : List TermArgument → Bool
  | [.literal name] => isReference name
  | .literal name :: .literal relAlias :: _ => isReference name && relAlias.isOptionalText
  | _ => false

/-- The value references a column by name or by position. -/
def isReference (v : Value) : Bool :=
  v.isName || v.isInteger

theorem isHashable_of_isReference {v : Value} (h : isReference v = true) :
    v.isHashable = true := by
  rcases Bool.or_eq_true _ _ ▸ h with h | h
  · exact Value.isHashable_of_isText (Value.isText_of_isName h)
  · exact Value.isHashable_of_isInteger h

theorem isText_of_supported {datatype : Value} (h : supportedTypes.contains datatype = true) :
    datatype.isText = true := by
  simp only [supportedTypes, List.contains_eq_mem, List.mem_cons, List.not_mem_nil, or_false,
    decide_eq_true_eq] at h
  rcases h with rfl | rfl | rfl | rfl | rfl <;> rfl

mutual

/-- The expression has positions throughout; column references have the unknown type, all other
expressions a supported one, and only constants and column references have literal arguments. -/
def isWellFormed : Term → Bool
  | .mk origin datatype func args =>
    origin.span.isSome && func.isText &&
      if func = columnName then datatype == .string "null" && nameColumn isReference args
      else supportedTypes.contains datatype && (func == Expr.constantName || areWellFormed args)

/-- The arguments are well-formed expressions. -/
def areWellFormed : List TermArgument → Bool
  | [] => true
  | .literal _ :: _ => false
  | .nested t :: as => isWellFormed t && areWellFormed as

end

mutual

/-- The expression has positions throughout and can be lowered: a column reference of the unknown
type names a column, any other expression has a supported type, and only constants have literal
arguments. -/
def isLowerable : Term → Bool
  | .mk origin datatype func args =>
    origin.span.isSome && func.isText &&
      if datatype = .string "null" ∧ func = columnName then nameColumn isReference args
      else supportedTypes.contains datatype && (func == Expr.constantName || areLowerable args)

/-- The arguments are expressions that can be lowered. -/
def areLowerable : List TermArgument → Bool
  | [] => true
  | .literal _ :: _ => false
  | .nested t :: as => isLowerable t && areLowerable as

end

mutual

theorem isLowerable_of_isWellFormed : ∀ {t : Term}, t.isWellFormed = true → t.isLowerable = true
  | .mk origin datatype func args, h => by
    simp only [isWellFormed, Bool.and_eq_true] at h
    simp only [isLowerable, Bool.and_eq_true]
    obtain ⟨hhead, h⟩ := h
    refine ⟨hhead, ?_⟩
    by_cases hcolumn : func = columnName
    · simp only [hcolumn, if_true, Bool.and_eq_true, beq_iff_eq] at h
      rw [if_pos ⟨h.1, hcolumn⟩]
      exact h.2
    · simp only [hcolumn, if_false, and_false, Bool.and_eq_true, Bool.or_eq_true] at h ⊢
      exact ⟨h.1, h.2.imp_right areLowerable_of_areWellFormed⟩

theorem areLowerable_of_areWellFormed :
    ∀ {args : List TermArgument}, areWellFormed args = true → areLowerable args = true
  | [], _ => rfl
  | .literal _ :: _, h => by simp [areWellFormed] at h
  | .nested t :: as, h => by
    simp only [areWellFormed, Bool.and_eq_true] at h
    simp only [areLowerable, Bool.and_eq_true]
    exact ⟨isLowerable_of_isWellFormed h.1, areLowerable_of_areWellFormed h.2⟩

end

mutual

theorem isTyped_of_isLowerable : ∀ {t : Term}, t.isLowerable = true → t.isTyped = true
  | .mk origin datatype func args, h => by
    simp only [isLowerable, Bool.and_eq_true] at h
    obtain ⟨⟨-, hfunc⟩, h⟩ := h
    by_cases hcolumn : datatype = .string "null" ∧ func = columnName
    · rw [hcolumn.1, hcolumn.2]
      rfl
    · simp only [hcolumn, if_false, Bool.and_eq_true, Bool.or_eq_true] at h
      simp only [isTyped, Bool.and_eq_true, Bool.or_eq_true]
      refine ⟨⟨isText_of_supported h.1, hfunc⟩, ?_⟩
      rcases h.2 with hconstant | hargs
      · exact .inl (.inl hconstant)
      · exact .inr (areTyped_of_areLowerable hargs)

theorem areTyped_of_areLowerable :
    ∀ {args : List TermArgument}, areLowerable args = true → areTyped args = true
  | [], _ => rfl
  | .literal _ :: _, h => by simp [areLowerable] at h
  | .nested t :: as, h => by
    simp only [areLowerable, Bool.and_eq_true] at h
    simp only [areTyped, Bool.and_eq_true]
    exact ⟨isTyped_of_isLowerable h.1, areTyped_of_areLowerable h.2⟩

end

mutual

/-- The origins of an expression and all nested ones. -/
def origins : Term → List Origin
  | .mk origin _ _ args => origin :: argumentOrigins args

/-- The origins of the expressions among arguments. -/
def argumentOrigins : List TermArgument → List Origin
  | [] => []
  | .literal _ :: as => argumentOrigins as
  | .nested t :: as => origins t ++ argumentOrigins as

end

end Term

/-- What is asked of the parts of a query. -/
structure Standard where
  /-- Where nodes and clauses come from. -/
  origin : Origin → Bool
  /-- The names of columns and results. -/
  name : Value → Bool
  term : Term → Bool

namespace Standard

/-- Every attribute is of its declared kind. -/
def typed : Standard where
  origin _ := true
  name := Value.isText
  term := Term.isTyped

/-- Every attribute is of its declared kind, and what can be missing or empty is not. -/
def strict : Standard where
  origin o := o.span.isSome
  name := Value.isName
  term := Term.isWellFormed

/-- Nothing is missing or empty, and expressions can be lowered. -/
def lowerable : Standard where
  origin o := o.span.isSome
  name := Value.isName
  term := Term.isLowerable

/-- Types and functions in expressions that meet the standard are texts. -/
def IsTyped (s : Standard) : Prop :=
  ∀ {t : Term}, s.term t = true → t.isTyped = true

theorem isTyped_typed : typed.IsTyped :=
  id

/-- What meets the standard can be lowered. -/
class IsStrict (s : Standard) : Prop where
  origin {o : Origin} : s.origin o = true → o.span.isSome = true
  name {v : Value} : s.name v = true → v.isName = true
  term {t : Term} : s.term t = true → t.isLowerable = true

instance : strict.IsStrict where
  origin := id
  name := id
  term := Term.isLowerable_of_isWellFormed

instance : lowerable.IsStrict where
  origin := id
  name := id
  term := id

theorem isTyped (s : Standard) [s.IsStrict] : s.IsTyped :=
  fun h => Term.isTyped_of_isLowerable (IsStrict.term h)

/-- A column can also be referenced by its position. -/
def reference (s : Standard) (v : Value) : Bool :=
  s.name v || v.isInteger

theorem isReference_of_reference {s : Standard} [s.IsStrict] {v : Value}
    (h : s.reference v = true) : Term.isReference v = true := by
  simp only [reference, Term.isReference, Bool.or_eq_true] at h ⊢
  exact h.imp_left IsStrict.name

theorem isHashable_of_name {s : Standard} [s.IsStrict] {v : Value} (h : s.name v = true) :
    v.isHashable = true :=
  Value.isHashable_of_isText (Value.isText_of_isName (IsStrict.name h))

end Standard

variable (s : Standard)

/-- The column reference meets the standard. -/
def ColumnRef.meets (c : ColumnRef) : Bool :=
  s.reference c.name && c.relAlias.isOptionalText

/-- There is a column reference, and it meets the standard. -/
def referenceMeets (c : Option ColumnRef) : Bool :=
  c.any (ColumnRef.meets s)

/-- The aggregate call meets the standard. -/
def AggregateCall.meets (call : AggregateCall) : Bool :=
  call.function.isText && call.column.all (ColumnRef.meets s) && s.name call.name

/-- The computed column meets the standard. -/
def ComputedColumn.meets (c : ComputedColumn) : Bool :=
  s.reference c.name && c.relAlias.isOptionalText && s.term c.child

/-- The sort entry meets the standard. -/
def OrderEntry.meets (entry : OrderEntry) : Bool :=
  referenceMeets s entry.column

/-- The join qualifier meets the standard. -/
def JoinQualifier.meets : JoinQualifier → Bool
  | .absent => true
  | .columns names => names.all Value.isText
  | .condition t => s.term t

/-- The entry of a SELECT list meets the standard. -/
def SelectItem.meets : SelectItem → Bool
  | .column _ name relAlias label =>
    s.reference name && relAlias.isOptionalText && label.isOptionalText
  | .aggregate call => call.meets s
  | .computed c => c.meets s

/-- The aggregate calls in a SELECT list meet the standard if all of its entries do. -/
theorem meets_of_mem_aggregateCalls {s : Standard} {items : List SelectItem} {call : AggregateCall}
    (h : items.all (SelectItem.meets s) = true) (hcall : call ∈ SelectItem.aggregateCalls items) :
    call.meets s = true := by
  obtain ⟨item, hitem, hsome⟩ := List.mem_filterMap.mp hcall
  cases item with
  | aggregate call' =>
      cases hsome
      exact List.all_eq_true.mp h _ hitem
  | _ => cases hsome

/-- The WHERE or HAVING clause meets the standard. -/
def ConditionClause.meets (clause : ConditionClause) : Bool :=
  s.origin clause.origin && s.term clause.condition

/-- The clauses of a statement meet the standard. -/
def Clauses.meets (clauses : Clauses) : Bool :=
  s.origin clauses.select.origin && clauses.select.items.all (SelectItem.meets s)
    && clauses.filter.all (ConditionClause.meets s)
    && clauses.groupBy.all (List.all · (referenceMeets s))
    && clauses.having.all (ConditionClause.meets s) && clauses.aggregateCount.isInteger

/-- The unary SQL node meets the standard. -/
def SqlUnary.meets : SqlUnary → Bool
  | .renameRelation relAlias | .subquery relAlias => relAlias.isText
  | .orderBy entries => entries.all (OrderEntry.meets s)
  | .limit count offset => count.isInteger && offset.isInteger

/-- The binary SQL node meets the standard. -/
def SqlBinary.meets : SqlBinary → Bool
  | .join _ qualifier => qualifier.meets s
  | _ => true

namespace Sql

/-- All parts of the query meet the standard. -/
def meets : Sql → Bool
  | .relation origin name relAlias => s.origin origin && name.isText && relAlias.isOptionalText
  | .statement origin clauses source => s.origin origin && clauses.meets s && source.meets
  | .unary origin op child => s.origin origin && op.meets s && child.meets
  | .binary origin op left right => s.origin origin && op.meets s && left.meets && right.meets

/-- Every attribute of the query is of its declared kind. -/
def isWellTyped (q : Sql) : Bool :=
  q.meets .typed

/-- The query is well typed, its nodes, clauses and expressions have positions, its names are not
empty, and its expressions can be lowered. -/
def isWellFormed (q : Sql) : Bool :=
  q.meets .strict

/-- All nodes of the query in preorder. -/
def nodes : Sql → List Sql
  | .relation origin name relAlias => [.relation origin name relAlias]
  | .statement origin clauses source => .statement origin clauses source :: source.nodes
  | .unary origin op child => .unary origin op child :: child.nodes
  | .binary origin op left right => .binary origin op left right :: (left.nodes ++ right.nodes)

end Sql

/-- The entry of a projection meets the standard. -/
def ProjectionEntry.meets : ProjectionEntry → Bool
  | .column ref => ref.meets s
  | .computed c => c.meets s

/-- The renaming meets the standard. -/
def ColumnRenaming.meets (r : ColumnRenaming) : Bool :=
  referenceMeets s r.source && s.name r.target

/-- The inline relation meets the standard: its rows have one value for each column. -/
def Table.meets (table : Table) : Bool :=
  table.name.isText
    && table.columns.all (fun c => s.name c.name && c.relAlias.isOptionalText && c.type.isText)
    && table.rows.all fun row => row.length == table.columns.length

/-- The unary algebra node meets the standard. -/
def AlgebraUnary.meets : AlgebraUnary → Bool
  | .selection condition => s.term condition
  | .projection entries => entries.all (ProjectionEntry.meets s)
  | .orderBy entries => entries.all (OrderEntry.meets s)
  | .groupBy groups aggregates =>
    groups.all (referenceMeets s) && aggregates.all (AggregateCall.meets s)
  | .renameColumns renamings => renamings.all (ColumnRenaming.meets s)
  | .renameRelation relAlias => relAlias.isText

/-- The binary algebra node meets the standard. -/
def AlgebraBinary.meets : AlgebraBinary → Bool
  | .theta condition => s.term condition
  | .outer _ qualifier => qualifier.meets s
  | _ => true

namespace Algebra

/-- All parts of the query meet the standard. -/
def meets : Algebra → Bool
  | .relation header name => s.origin header.origin && name.isText
  | .table header inline => s.origin header.origin && inline.meets s
  | .unary header op child => s.origin header.origin && op.meets s && child.meets
  | .binary header op left right =>
    s.origin header.origin && op.meets s && left.meets && right.meets

/-- Every attribute of the query is of its declared kind, and the rows of its inline relations fit
their columns. -/
def isWellTyped (q : Algebra) : Bool :=
  q.meets .typed

/-- The query is well typed, its nodes and expressions have positions, its names are not empty, its
expressions can be lowered, and the rows of its inline relations fit their columns. -/
def isWellFormed (q : Algebra) : Bool :=
  q.meets .strict

end Algebra

/-! ### The expressions of a query -/

/-- The expressions that a join qualifier contains. -/
def JoinQualifier.terms : JoinQualifier → List Term
  | .condition t => [t]
  | _ => []

/-- The expressions that an entry of a SELECT list contains. -/
def SelectItem.terms : SelectItem → List Term
  | .computed c => [c.child]
  | _ => []

/-- The expressions of a WHERE or HAVING clause. -/
def Clauses.conditions (clause : Option ConditionClause) : List Term :=
  clause.toList.map ConditionClause.condition

/-- The expressions in the clauses of a statement. -/
def Clauses.terms (clauses : Clauses) : List Term :=
  conditions clauses.filter ++ conditions clauses.having
    ++ clauses.select.items.flatMap SelectItem.terms

/-- The expressions that a binary SQL node contains. -/
def SqlBinary.terms : SqlBinary → List Term
  | .join _ qualifier => qualifier.terms
  | _ => []

/-- The expressions that an entry of a projection contains. -/
def ProjectionEntry.terms : ProjectionEntry → List Term
  | .computed c => [c.child]
  | _ => []

/-- The expressions that a unary algebra node contains. -/
def AlgebraUnary.terms : AlgebraUnary → List Term
  | .selection condition => [condition]
  | .projection entries => entries.flatMap ProjectionEntry.terms
  | _ => []

/-- The expressions that a binary algebra node contains. -/
def AlgebraBinary.terms : AlgebraBinary → List Term
  | .theta condition => [condition]
  | .outer _ qualifier => qualifier.terms
  | _ => []

/-- The expressions of a query that are lowered. -/
def Sql.terms : Sql → List Term
  | .relation _ _ _ => []
  | .statement _ clauses source => clauses.terms ++ source.terms
  | .unary _ _ child => child.terms
  | .binary _ op left right => op.terms ++ (left.terms ++ right.terms)

/-- The expressions of a query that are lowered. -/
def Algebra.terms : Algebra → List Term
  | .relation _ _ | .table _ _ => []
  | .unary _ op child => op.terms ++ child.terms
  | .binary _ op left right => op.terms ++ (left.terms ++ right.terms)

/-- The expressions of a join qualifier meet the standard that it meets. -/
theorem JoinQualifier.term_of_mem_terms {s : Standard} {qualifier : JoinQualifier}
    (h : qualifier.meets s = true) : ∀ t ∈ qualifier.terms, s.term t = true := by
  cases qualifier with
  | condition t => simpa [terms, meets] using h
  | _ => nofun

theorem ComputedColumn.term_of_meets {s : Standard} {c : ComputedColumn} (h : c.meets s = true) :
    s.term c.child = true := by
  simp only [meets, Bool.and_eq_true] at h
  exact h.2

theorem SelectItem.term_of_mem_terms {s : Standard} {item : SelectItem}
    (h : item.meets s = true) : ∀ t ∈ item.terms, s.term t = true := by
  cases item with
  | computed c => simpa [terms] using c.term_of_meets h
  | _ => nofun

theorem Clauses.term_of_mem_conditions {s : Standard} {clause : Option ConditionClause}
    (h : clause.all (ConditionClause.meets s) = true) :
    ∀ t ∈ conditions clause, s.term t = true := by
  cases clause with
  | none => nofun
  | some clause =>
      simp only [Option.all_some, ConditionClause.meets, Bool.and_eq_true] at h
      simpa [conditions] using h.2

theorem Clauses.term_of_mem_terms {s : Standard} {clauses : Clauses}
    (h : clauses.meets s = true) : ∀ t ∈ clauses.terms, s.term t = true := by
  simp only [meets, Bool.and_eq_true, List.all_eq_true] at h
  obtain ⟨⟨⟨⟨⟨-, hitems⟩, hfilter⟩, -⟩, hhaving⟩, -⟩ := h
  simp only [terms, List.forall_mem_append, List.forall_mem_flatMap]
  exact ⟨⟨term_of_mem_conditions hfilter, term_of_mem_conditions hhaving⟩,
    fun item hitem => item.term_of_mem_terms (hitems item hitem)⟩

theorem SqlBinary.term_of_mem_terms {s : Standard} {op : SqlBinary} (h : op.meets s = true) :
    ∀ t ∈ op.terms, s.term t = true := by
  cases op with
  | join kind qualifier => exact qualifier.term_of_mem_terms h
  | _ => nofun

theorem AlgebraUnary.term_of_mem_terms {s : Standard} {op : AlgebraUnary}
    (h : op.meets s = true) : ∀ t ∈ op.terms, s.term t = true := by
  cases op with
  | selection condition => simpa [terms, meets] using h
  | projection entries =>
      simp only [meets, List.all_eq_true] at h
      refine List.forall_mem_flatMap.mpr fun entry hentry => ?_
      cases entry with
      | column ref => nofun
      | computed c => simpa [ProjectionEntry.terms] using c.term_of_meets (h _ hentry)
  | _ => nofun

theorem AlgebraBinary.term_of_mem_terms {s : Standard} {op : AlgebraBinary}
    (h : op.meets s = true) : ∀ t ∈ op.terms, s.term t = true := by
  cases op with
  | theta condition => simpa [terms, meets] using h
  | outer side qualifier => exact qualifier.term_of_mem_terms h
  | _ => nofun

/-- The expressions of a SQL query meet the standard that the query meets. -/
theorem Sql.term_of_mem_terms {s : Standard} {q : Sql} (h : q.meets s = true) :
    ∀ t ∈ q.terms, s.term t = true := by
  induction q with
  | relation origin name relAlias => nofun
  | statement origin clauses source ih =>
      simp only [meets, Bool.and_eq_true] at h
      exact List.forall_mem_append.mpr ⟨clauses.term_of_mem_terms h.1.2, ih h.2⟩
  | unary origin op child ih =>
      simp only [meets, Bool.and_eq_true] at h
      exact ih h.2
  | binary origin op left right ihl ihr =>
      simp only [meets, Bool.and_eq_true] at h
      simp only [terms, List.forall_mem_append]
      exact ⟨op.term_of_mem_terms h.1.1.2, ihl h.1.2, ihr h.2⟩

/-- The expressions of an algebra query meet the standard that the query meets. -/
theorem Algebra.term_of_mem_terms {s : Standard} {q : Algebra} (h : q.meets s = true) :
    ∀ t ∈ q.terms, s.term t = true := by
  induction q with
  | relation header name => nofun
  | table header inline => nofun
  | unary header op child ih =>
      simp only [meets, Bool.and_eq_true] at h
      exact List.forall_mem_append.mpr ⟨op.term_of_mem_terms h.1.2, ih h.2⟩
  | binary header op left right ihl ihr =>
      simp only [meets, Bool.and_eq_true] at h
      simp only [terms, List.forall_mem_append]
      exact ⟨op.term_of_mem_terms h.1.1.2, ihl h.1.2, ihr h.2⟩

/-! ### Where the parts of a query come from -/

/-- The origins of the expressions in a join qualifier. -/
def JoinQualifier.origins : JoinQualifier → List Origin
  | .condition t => t.origins
  | _ => []

/-- The origins of the expressions in an entry of a SELECT list. -/
def SelectItem.origins : SelectItem → List Origin
  | .computed c => c.child.origins
  | _ => []

/-- The origins of a WHERE or HAVING clause and its condition. -/
def ConditionClause.origins (clause : ConditionClause) : List Origin :=
  clause.origin :: clause.condition.origins

/-- The origins of the clauses of a statement and their expressions. -/
def Clauses.origins (clauses : Clauses) : List Origin :=
  clauses.select.origin :: clauses.select.items.flatMap SelectItem.origins
    ++ clauses.filter.toList.flatMap ConditionClause.origins
    ++ clauses.having.toList.flatMap ConditionClause.origins

/-- The origins of the expressions in a binary SQL node. -/
def SqlBinary.origins : SqlBinary → List Origin
  | .join _ qualifier => qualifier.origins
  | _ => []

/-- The origins of all nodes, clauses and expressions of a query. -/
def Sql.origins : Sql → List Origin
  | .relation origin _ _ => [origin]
  | .statement origin clauses source => origin :: (clauses.origins ++ source.origins)
  | .unary origin _ child => origin :: child.origins
  | .binary origin op left right => origin :: (op.origins ++ left.origins ++ right.origins)

/-- The origins of the expressions in an entry of a projection. -/
def ProjectionEntry.origins : ProjectionEntry → List Origin
  | .column _ => []
  | .computed c => c.child.origins

/-- The origins of the expressions in a unary algebra node. -/
def AlgebraUnary.origins : AlgebraUnary → List Origin
  | .selection condition => condition.origins
  | .projection entries => entries.flatMap ProjectionEntry.origins
  | _ => []

/-- The origins of the expressions in a binary algebra node. -/
def AlgebraBinary.origins : AlgebraBinary → List Origin
  | .theta condition => condition.origins
  | .outer _ qualifier => qualifier.origins
  | _ => []

/-- The origins of all nodes and expressions of a query. -/
def Algebra.origins : Algebra → List Origin
  | .relation header _ | .table header _ => [header.origin]
  | .unary header op child => header.origin :: (op.origins ++ child.origins)
  | .binary header op left right =>
    header.origin :: (op.origins ++ left.origins ++ right.origins)

/-! ### A small example -/

namespace Sample

/-- The position of all parts of the example. -/
def origin : Origin :=
  { span := some (SourceSpan.ofText "SELECT") }

/-- A catalog with one relation `R(a, b)`. -/
def catalog : Catalog :=
  [("R", {}, {
    name := .string "R"
    schema := some ⟨[⟨.string "a", .string "R", .string "number"⟩,
      ⟨.string "b", .string "R", .string "string"⟩]⟩ })]

/-- A reference to the relation. -/
def source : Sql :=
  .relation origin (.string "R") .null

/-- The clauses of a statement that has only a SELECT list. -/
def clauses (items : List SelectItem) : Clauses where
  select := ⟨origin, true, items⟩
  filter := none
  groupBy := none
  having := none
  aggregateCount := .int 0

/-- A statement over the relation. -/
def statement (items : List SelectItem) : Sql :=
  .statement origin (clauses items) source

/-- The SELECT list `b AS x, a`. -/
def renamed : List SelectItem :=
  [.column origin (.string "b") .null (.string "x"), .column origin (.string "a") .null .null]

end Sample

end Query

end LogicalPlan
