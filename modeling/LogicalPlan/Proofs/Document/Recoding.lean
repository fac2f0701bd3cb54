import Mathlib.Data.Option.Basic
import Mathlib.Logic.Relation
import LogicalPlan.Lowering.Grammar
import LogicalPlan.Proofs.Document.Literals

/-!
# Documents inside documents

A document is an object or the JSON text of one, and so are many documents nested in it: the inputs
of operators, the conditions of clauses and joins, and computed columns. Replacing such objects by
their texts, at any places and to any depth, leaves what is loaded unchanged.

## Implementation notes

What a value is loaded as is its role. A role tells which attributes of a document have roles of
their own, so a place in a document is a path of attributes and items along the table of roles.
One replacement is a step of `Recodes`; replacements inside each other are steps from the inside
out. Texts of faults show documents as they are written. Therefore, only values are compared.
-/

namespace LogicalPlan

open Outcome

namespace Outcome

variable {α β : Type}

/-- Two outcomes have the same values. What they fail with is left open. -/
def Concur (x y : Outcome α) : Prop :=
  ∀ a, x = .ok a ↔ y = .ok a

namespace Concur

theorem refl (x : Outcome α) : Concur x x :=
  fun _ => Iff.rfl

theorem of_eq {x y : Outcome α} (h : x = y) : Concur x y :=
  h ▸ refl x

theorem error (f g : Fault) : Concur (.error f : Outcome α) (.error g) := by
  intro a
  constructor <;> intro h <;> cases h

theorem bind {x y : Outcome α} {f g : α → Outcome β} (hx : Concur x y)
    (hf : ∀ a, Concur (f a) (g a)) : Concur (x >>= f) (y >>= g) := by
  intro b
  rw [bind_eq_ok, bind_eq_ok]
  constructor
  · rintro ⟨a, ha, hb⟩
    exact ⟨a, (hx a).mp ha, (hf a b).mp hb⟩
  · rintro ⟨a, ha, hb⟩
    exact ⟨a, (hx a).mpr ha, (hf a b).mpr hb⟩

theorem map {x y : Outcome α} (hx : Concur x y) (f : α → β) : Concur (x.map f) (y.map f) := by
  rw [map_eq_bind, map_eq_bind]
  exact hx.bind fun a => refl _

theorem mapM {f : α → Outcome β} {as bs : List α}
    (h : List.Forall₂ (fun a b => Concur (f a) (f b)) as bs) : Concur (as.mapM f) (bs.mapM f) := by
  induction h with
  | nil => exact refl _
  | cons hhead htail ih =>
      rw [List.mapM_cons, List.mapM_cons]
      exact hhead.bind fun a => ih.bind fun as => refl _

end Concur

end Outcome

namespace Document

open Query

/-! ### Loading by steps -/

/-- A SQL query is loaded from the attributes of its document. -/
theorem loadSql_eq (doc : Value) : loadSql doc = (do
    let ⟨members, _⟩ ← membersOf doc
    let type ← requireValue members "type"
    if !type.isHashable then wrongType
    else
      match sqlBinary? type with
      | some load =>
        let left ← requireValue members "child"
        let left ← loadSql left
        let right ← requireValue members "child2"
        let right ← loadSql right
        let op ← load members
        let origin ← loadOrigin members
        .ok (.binary origin op left right)
      | none =>
        match sqlUnary? type with
        | some (key, load) =>
          let child ← requireValue members key
          let child ← loadSql child
          let op ← load members
          let origin ← loadOrigin members
          .ok (.unary origin op child)
        | none =>
          match type with
          | .string "relation" =>
            let name ← requireValue members "name"
            let origin ← loadOrigin members
            .ok (.relation origin name (attributeOf members "relAlias"))
          | .string "statement" =>
            let groupBy ← loadGroupBy (attributeOf members "groupBy")
            let select ← requireValue members "select"
            let select ← loadSelect select
            let source ← requireValue members "from"
            let source ← loadSql source
            let filter ← loadClause (attributeOf members "where")
            let having ← loadClause (attributeOf members "having")
            let count := (members.get? "numAggregationColumns").getD (.int 0)
            let origin ← loadOrigin members
            .ok (.statement origin ⟨select, filter, groupBy, having, count⟩ source)
          | type => .error (.document (.unknownSqlNode type))) := by
  rw [loadSql]
  simp only [requireValue, ok_bind, bind_assoc, -eq_self]
  rfl

/-- A relational algebra query is loaded from the attributes of its document. -/
theorem loadAlgebra_eq (doc : Value) : loadAlgebra doc = (do
    let ⟨members, _⟩ ← membersOf doc
    let type ← requireValue members "type"
    if !type.isHashable then wrongType
    else
      match algebraBinary? type with
      | some load =>
        let left ← requireValue members "child"
        let left ← loadAlgebra left
        let right ← requireValue members "child2"
        let right ← loadAlgebra right
        let op ← load members
        let header ← loadHeader members
        .ok (.binary header op left right)
      | none =>
        match algebraUnaryFirst? type with
        | some load =>
          let op ← load members
          let child ← requireValue members "child"
          let child ← loadAlgebra child
          let header ← loadHeader members
          .ok (.unary header op child)
        | none =>
          match algebraUnaryLast? type with
          | some load =>
            let child ← requireValue members "child"
            let child ← loadAlgebra child
            let op ← load members
            let header ← loadHeader members
            .ok (.unary header op child)
          | none =>
            match type with
            | .string "relation" =>
              let name ← requireValue members "name"
              let header ← loadHeader members
              .ok (.relation header name)
            | .string "table" =>
              let table ← loadTable members
              let header ← loadHeader members
              .ok (.table header table)
            | type => .error (.document (.unknownAlgebraNode type))) := by
  rw [loadAlgebra]
  simp only [requireValue, ok_bind, bind_assoc, -eq_self]
  rfl

/-- The text of an object stands for its members. -/
theorem membersOf_text {ms : Members} {s : String} (h : Json.read? s = some (.object ms)) :
    ∃ below, membersOf (.string s) = .ok below ∧ below.val = ms := by
  rw [← map_eq_ok]
  unfold membersOf
  dsimp only
  split
  case h_1 hnone =>
    rw [h] at hnone
    cases hnone
  case h_2 hread =>
    rw [h] at hread
    cases hread
    rfl
  case h_3 hother hread =>
    rw [h] at hread
    cases hread
    exact absurd rfl (hother ms)

/-! ### Roles -/

/-- What a value in a document is loaded as. -/
inductive Role where
  | sqlRoot
  | sql
  | select
  | selectItem
  | clause
  | algebraRoot
  | algebra
  | projectionEntry
  | term
  | qualifier
  /-- A list of values of one role. -/
  | many (role : Role)

namespace Role

/-- What loading a value of the role yields. -/
def Result : Role → Type
  | .sqlRoot | .sql => Sql
  | .select => SelectClause
  | .selectItem => SelectItem
  | .clause => Option ConditionClause
  | .algebraRoot | .algebra => Algebra
  | .projectionEntry => ProjectionEntry
  | .term => Term
  | .qualifier => JoinQualifier
  | .many role => List role.Result

/-- How a value of the role is loaded. -/
def load : (role : Role) → Value → Outcome role.Result
  | .sqlRoot => loadSqlRoot
  | .sql => loadSql
  | .select => loadSelect
  | .selectItem => loadSelectItem
  | .clause => loadClause
  | .algebraRoot => loadAlgebraRoot
  | .algebra => loadAlgebra
  | .projectionEntry => loadProjectionEntry
  | .term => loadTerm
  | .qualifier => loadQualifier
  | .many role => fun v => v.items >>= List.mapM role.load

/-- An object of the role can be given as its text. -/
def isTextual : Role → Bool
  | .sqlRoot | .sql | .algebraRoot | .algebra | .term | .qualifier => true
  | _ => false

/-- The role of the argument of an algebra node of a type, if it has one. -/
def argument? (type : Value) : Option Role :=
  match type with
  | .string "selection" | .string "thetaJoin" => some .term
  | .string "leftOuterJoin" | .string "rightOuterJoin" | .string "fullOuterJoin" => some .qualifier
  | .string "projection" => some (.many .projectionEntry)
  | _ => none

/-- The attributes with roles of their own, in a document of the role that has the given type. -/
def attributes (type : Value) : Role → List (String × Role)
  | .sqlRoot => [("child", .sql)]
  | .sql => [("child", .sql), ("child2", .sql), ("from", .sql), ("statement", .sql),
      ("select", .select), ("where", .clause), ("having", .clause), ("cond", .qualifier)]
  | .select => [("arg", .many .selectItem)]
  | .selectItem | .projectionEntry => [("child", .term)]
  | .clause => [("arg", .term)]
  | .algebraRoot => [("child", .algebra)]
  | .algebra => [("child", .algebra), ("child2", .algebra)] ++
      ((argument? type).map (("arg", ·))).toList
  | .term | .qualifier | .many _ => []

/-- The role of an attribute of a document of the role, if it has one. -/
def attribute? (role : Role) (members : Members) (key : String) : Option Role :=
  (role.attributes (attributeOf members "type")).lookup key

/-- The values are loaded alike in the role. -/
def Agree (role : Role) (v w : Value) : Prop :=
  Concur (role.load v) (role.load w)

/-- The members are loaded alike in a document of the role: they differ at most in attributes with
roles of their own, and there they are loaded alike. -/
structure Accord (role : Role) (ms ms' : Members) : Prop where
  plain (key : String) : role.attribute? ms key = none → ms.get? key = ms'.get? key
  nested {key : String} {inner : Role} : role.attribute? ms key = some inner →
    Option.Rel inner.Agree (ms.get? key) (ms'.get? key)

/-- The role of the argument of an algebra node depends on the type of the node. -/
theorem attribute?_argument {ms : Members} {type : Value} (htype : ms.get? "type" = some type) :
    algebra.attribute? ms "arg" = argument? type := by
  unfold attribute? attributes attributeOf
  rw [htype, Option.getD_some]
  cases argument? type <;> rfl

/-- The roles of its other attributes do not. -/
theorem attribute?_algebra (ms : Members) {key : String} (hkey : key ≠ "arg") :
    algebra.attribute? ms key = [("child", algebra), ("child2", algebra)].lookup key := by
  unfold attribute? attributes
  cases argument? (attributeOf ms "type") with
  | none => rfl
  | some role =>
      have hlast : [("arg", role)].lookup key = none := by
        rw [List.lookup_cons, beq_eq_false_iff_ne.mpr hkey]
        rfl
      rw [List.lookup_append, Option.map_some, Option.toList_some, hlast, Option.or_none]

/-- Positions and metadata are no documents. -/
theorem attribute?_header (role : Role) (ms : Members) {key : String}
    (hkey : key ∈ ["codeInfo", "wrappedInParentheses", "metaData"]) :
    role.attribute? ms key = none := by
  simp only [List.mem_cons, List.not_mem_nil, or_false] at hkey
  cases role with
  | algebra =>
      rcases hkey with rfl | rfl | rfl <;> exact attribute?_algebra ms (by decide)
  | _ => rcases hkey with rfl | rfl | rfl <;> rfl

namespace Accord

variable {role : Role} {ms ms' : Members} (h : role.Accord ms ms')
include h

theorem requireValue {key : String} (hkey : role.attribute? ms key = none) :
    Concur (requireValue ms key) (requireValue ms' key) := by
  rw [requireValue_eq, requireValue_eq, h.plain key hkey]
  cases ms'.get? key with
  | none => exact .error _ _
  | some v => exact .refl _

theorem attributeOf (key : String) (hkey : role.attribute? ms key = none) :
    attributeOf ms key = attributeOf ms' key := by
  rw [Document.attributeOf, h.plain key hkey]
  rfl

theorem flag (key : String) (hkey : role.attribute? ms key = none) (missing : Bool) :
    flag ms key missing = flag ms' key missing := by
  rw [Document.flag, h.plain key hkey]
  rfl

/-- A required attribute is loaded alike in its role. -/
theorem loadRequired (inner : Role) {key : String} (hkey : role.attribute? ms key = some inner) :
    Concur (Document.requireValue ms key >>= inner.load)
      (Document.requireValue ms' key >>= inner.load) := by
  have hnested := h.nested hkey
  rw [requireValue_eq, requireValue_eq]
  generalize ms.get? key = found, ms'.get? key = found' at hnested
  cases hnested with
  | none => exact .error _ _
  | some hagree => exact hagree

/-- What follows the loading of a required attribute has to agree on what is loaded. -/
theorem loadRequired_bind (inner : Role) {key : String}
    (hkey : role.attribute? ms key = some inner) {β : Type} {f g : inner.Result → Outcome β}
    (hf : ∀ a, Concur (f a) (g a)) :
    Concur (Document.requireValue ms key >>= fun v => inner.load v >>= f)
      (Document.requireValue ms' key >>= fun v => inner.load v >>= g) := by
  rw [← bind_assoc, ← bind_assoc]
  exact (h.loadRequired inner hkey).bind hf

theorem loadRequired_many (inner : Role) {key : String}
    (hkey : role.attribute? ms key = some (.many inner)) {β : Type}
    {f g : List inner.Result → Outcome β} (hf : ∀ as, Concur (f as) (g as)) :
    Concur (Document.requireValue ms key >>= fun v => v.items >>= fun vs =>
        vs.mapM inner.load >>= f)
      (Document.requireValue ms' key >>= fun v => v.items >>= fun vs =>
        vs.mapM inner.load >>= g) := by
  have hassoc (v : Value) (f : List inner.Result → Outcome β) :
      (v.items >>= fun vs => vs.mapM inner.load >>= f) = (many inner).load v >>= f :=
    (bind_assoc _ _ _).symm
  simp only [hassoc]
  exact h.loadRequired_bind _ hkey hf

/-- An attribute that may be missing is loaded alike in its role. -/
theorem loadOptional (inner : Role) {key : String} (hkey : role.attribute? ms key = some inner) :
    Concur (inner.load (Document.attributeOf ms key))
      (inner.load (Document.attributeOf ms' key)) := by
  have hnested := h.nested hkey
  unfold Document.attributeOf
  generalize ms.get? key = found, ms'.get? key = found' at hnested
  cases hnested with
  | none => exact .refl _
  | some hagree => exact hagree

theorem loadOrigin : loadOrigin ms = loadOrigin ms' := by
  rw [Document.loadOrigin, h.attributeOf _ (role.attribute?_header ms (by decide)),
    h.flag _ (role.attribute?_header ms (by decide))]
  rfl

theorem loadHeader : loadHeader ms = loadHeader ms' := by
  rw [Document.loadHeader, h.loadOrigin,
    h.attributeOf _ (role.attribute?_header ms (by decide))]
  rfl

end Accord

/-! ### Parts of queries -/

section Parts

variable {ms ms' : Members}

/-- A computed column is loaded alike as an entry of either kind of list. -/
theorem Accord.loadComputedColumn {role : Role} (h : role.Accord ms ms')
    (hrole : ∀ type, role.attributes type = [("child", .term)]) :
    Concur (loadComputedColumn ms) (loadComputedColumn ms') := by
  have hkey (key : String) : role.attribute? ms key = [("child", Role.term)].lookup key := by
    rw [attribute?, hrole]
  unfold Document.loadComputedColumn
  rw [h.loadOrigin, h.attributeOf "relAlias" (hkey _)]
  refine (h.requireValue (hkey _)).bind fun name => ?_
  exact h.loadRequired_bind .term (hkey "child") fun child => .refl _

theorem Accord.loadAggregate (h : selectItem.Accord ms ms') :
    Concur (loadAggregate (.object ms)) (loadAggregate (.object ms')) := by
  unfold Document.loadAggregate
  simp only [nodeWith, ok_bind]
  rw [h.loadOrigin, h.attributeOf "col" rfl]
  refine (h.requireValue rfl).bind fun function => Concur.bind (.refl _) fun column => ?_
  exact (h.requireValue rfl).bind fun name => .refl _

theorem agree_selectItem (h : selectItem.Accord ms ms') :
    selectItem.Agree (.object ms) (.object ms') := by
  unfold Agree load loadSelectItem
  simp only [node, ok_bind]
  rw [h.loadOrigin, h.attributeOf "type" rfl, h.attributeOf "relAlias" rfl,
    h.attributeOf "alias" rfl]
  split
  · exact (h.requireValue rfl).bind fun name => .refl _
  · exact (h.requireValue rfl).bind fun name => .refl _
  · exact h.loadAggregate.map _
  · exact (h.loadComputedColumn fun _ => rfl).map _
  · exact .error _ _

theorem agree_projectionEntry (h : projectionEntry.Accord ms ms') :
    projectionEntry.Agree (.object ms) (.object ms') := by
  unfold Agree load loadProjectionEntry
  simp only [node, ok_bind]
  rw [h.loadOrigin, h.attributeOf "type" rfl, h.attributeOf "relAlias" rfl]
  split
  · exact (h.requireValue rfl).bind fun name => .refl _
  · exact (h.requireValue rfl).bind fun name => .refl _
  · exact (h.loadComputedColumn fun _ => rfl).map _
  · exact .error _ _

theorem agree_select (h : select.Accord ms ms') : select.Agree (.object ms) (.object ms') := by
  unfold Agree load loadSelect
  simp only [nodeWith, ok_bind]
  rw [h.loadOrigin, h.flag "distinct" rfl]
  exact h.loadRequired_many .selectItem rfl fun items => .refl _

theorem agree_clause (h : clause.Accord ms ms') : clause.Agree (.object ms) (.object ms') := by
  unfold Agree load loadClause
  simp only [nodeWith, ok_bind]
  rw [h.loadOrigin]
  exact h.loadRequired_bind .term rfl fun condition => .refl _

theorem agree_sqlRoot (h : sqlRoot.Accord ms ms') : sqlRoot.Agree (.object ms) (.object ms') := by
  unfold Agree load loadSqlRoot
  simp only [membersOf, ok_bind]
  exact h.loadRequired .sql rfl

theorem agree_algebraRoot (h : algebraRoot.Accord ms ms') :
    algebraRoot.Agree (.object ms) (.object ms') := by
  unfold Agree load loadAlgebraRoot
  simp only [membersOf, ok_bind]
  exact h.loadRequired .algebra rfl

/-! ### SQL -/

theorem Accord.loadJoin (h : sql.Accord ms ms') (kind : JoinKind) :
    Concur (loadJoin kind ms) (loadJoin kind ms') :=
  (h.loadOptional .qualifier rfl).map _

theorem Accord.loadSetOperation (h : sql.Accord ms ms') (operation : SetOperation) :
    Concur (loadSetOperation operation ms) (loadSetOperation operation ms') := by
  unfold Document.loadSetOperation
  rw [h.flag _ rfl]
  exact .refl _

theorem Accord.sqlBinary? (h : sql.Accord ms ms') {type : Value}
    {load : Members → Outcome SqlBinary} (hload : sqlBinary? type = some load) :
    Concur (load ms) (load ms') := by
  unfold Document.sqlBinary? at hload
  split at hload <;> cases hload
  · exact h.loadJoin .inner
  · exact h.loadJoin .leftOuter
  · exact h.loadJoin .rightOuter
  · exact h.loadJoin .fullOuter
  · exact .refl _
  · exact .refl _
  · exact h.loadSetOperation .union
  · exact h.loadSetOperation .intersect
  · exact h.loadSetOperation .difference

theorem Accord.sqlUnary? (h : sql.Accord ms ms') {type : Value} {key : String}
    {load : Members → Outcome SqlUnary} (hload : sqlUnary? type = some (key, load)) :
    sql.attribute? ms key = some .sql ∧ Concur (load ms) (load ms') := by
  unfold Document.sqlUnary? at hload
  split at hload <;> cases hload
  · exact ⟨rfl, (h.requireValue rfl).map _⟩
  · exact ⟨rfl, (h.requireValue rfl).map _⟩
  · exact ⟨rfl, (h.requireValue rfl).bind fun entries => .refl _⟩
  · refine ⟨rfl, (h.requireValue rfl).bind fun limit => ?_⟩
    rw [h.plain _ rfl]
    exact .refl _

theorem agree_sql (h : sql.Accord ms ms') : sql.Agree (.object ms) (.object ms') := by
  unfold Agree load
  rw [loadSql_eq, loadSql_eq (.object ms')]
  simp only [membersOf, ok_bind]
  rw [h.loadOrigin, h.attributeOf "relAlias" rfl, h.attributeOf "groupBy" rfl,
    h.plain "numAggregationColumns" rfl]
  refine (h.requireValue rfl).bind fun type => ?_
  split
  case isTrue => exact .refl _
  case isFalse =>
    split
    case h_1 load hload =>
      refine h.loadRequired_bind .sql rfl fun left => ?_
      refine h.loadRequired_bind .sql rfl fun right => ?_
      exact (h.sqlBinary? hload).bind fun op => .refl _
    case h_2 =>
      split
      case h_1 key load hload =>
        obtain ⟨hkey, hop⟩ := h.sqlUnary? hload
        exact h.loadRequired_bind .sql hkey fun child => hop.bind fun op => .refl _
      case h_2 =>
        split
        · exact (h.requireValue rfl).bind fun name => .refl _
        · refine Concur.bind (.refl _) fun groupBy => ?_
          refine h.loadRequired_bind .select rfl fun select => ?_
          refine h.loadRequired_bind .sql rfl fun source => ?_
          refine (h.loadOptional .clause rfl).bind fun filter => ?_
          exact (h.loadOptional .clause rfl).bind fun having => .refl _
        · exact .refl _

/-! ### Relational algebra -/

theorem Accord.loadItems {role : Role} (h : role.Accord ms ms') {α : Type}
    (load : Value → Outcome α) {key : String} (hkey : role.attribute? ms key = none) :
    Concur (loadItems load ms key) (loadItems load ms' key) := by
  unfold Document.loadItems
  rw [h.plain key hkey]
  exact .refl _

theorem Accord.algebraBinary? (h : algebra.Accord ms ms') {type : Value}
    (htype : ms.get? "type" = some type) {load : Members → Outcome AlgebraBinary}
    (hload : algebraBinary? type = some load) : Concur (load ms) (load ms') := by
  have hargument := attribute?_argument htype
  unfold Document.algebraBinary? at hload
  split at hload <;> cases hload
  case h_5 => exact h.loadRequired_bind .term hargument fun condition => .refl _
  case h_11 | h_12 | h_13 => exact (h.loadOptional .qualifier hargument).map _
  all_goals exact .refl _

theorem Accord.algebraUnaryFirst? (h : algebra.Accord ms ms') {type : Value}
    (htype : ms.get? "type" = some type) {load : Members → Outcome AlgebraUnary}
    (hload : algebraUnaryFirst? type = some load) : Concur (load ms) (load ms') := by
  have hargument := attribute?_argument htype
  unfold Document.algebraUnaryFirst? at hload
  split at hload <;> cases hload
  case h_1 =>
    exact h.loadRequired_many .projectionEntry hargument fun entries => .refl _
  case h_2 =>
    refine (h.loadItems _ (attribute?_algebra ms (by decide))).bind fun groups => ?_
    exact (h.loadItems _ (attribute?_algebra ms (by decide))).bind fun aggregates => .refl _
  case h_3 => exact (h.requireValue hargument).bind fun entries => .refl _

theorem Accord.algebraUnaryLast? (h : algebra.Accord ms ms') {type : Value}
    (htype : ms.get? "type" = some type) {load : Members → Outcome AlgebraUnary}
    (hload : algebraUnaryLast? type = some load) : Concur (load ms) (load ms') := by
  have hargument := attribute?_argument htype
  unfold Document.algebraUnaryLast? at hload
  split at hload <;> cases hload
  case h_1 => exact h.loadRequired_bind .term hargument fun condition => .refl _
  case h_2 => exact (h.requireValue hargument).bind fun entries => .refl _
  case h_3 => exact (h.requireValue (attribute?_algebra ms (by decide))).map _

theorem Accord.loadTable (h : algebra.Accord ms ms') : Concur (loadTable ms) (loadTable ms') := by
  unfold Document.loadTable
  rw [h.plain "rows" (attribute?_algebra ms (by decide))]
  refine (h.requireValue (attribute?_algebra ms (by decide))).bind fun columns => ?_
  refine Concur.bind (.refl _) fun columns => Concur.bind (.refl _) fun columns => ?_
  refine Concur.bind (.refl _) fun rows => Concur.bind (.refl _) fun rows => ?_
  exact (h.requireValue (attribute?_algebra ms (by decide))).bind fun name => .refl _

theorem agree_algebra (h : algebra.Accord ms ms') :
    algebra.Agree (.object ms) (.object ms') := by
  have hchild : algebra.attribute? ms "child" = some algebra := attribute?_algebra ms (by decide)
  have hchild2 : algebra.attribute? ms "child2" = some algebra := attribute?_algebra ms (by decide)
  have htype := h.plain "type" (attribute?_algebra ms (by decide))
  unfold Agree load
  rw [loadAlgebra_eq, loadAlgebra_eq (.object ms')]
  simp only [membersOf, ok_bind, requireValue_eq _ "type"]
  rw [h.loadHeader, ← htype]
  cases hfound : ms.get? "type" with
  | none => exact .error _ _
  | some type =>
      simp only [Option.elim_some, ok_bind]
      split
      case isTrue => exact .refl _
      case isFalse =>
        split
        case h_1 load hload =>
          refine h.loadRequired_bind .algebra hchild fun left => ?_
          refine h.loadRequired_bind .algebra hchild2 fun right => ?_
          exact (h.algebraBinary? hfound hload).bind fun op => .refl _
        case h_2 =>
          split
          case h_1 load hload =>
            refine (h.algebraUnaryFirst? hfound hload).bind fun op => ?_
            exact h.loadRequired_bind .algebra hchild fun child => .refl _
          case h_2 =>
            split
            case h_1 load hload =>
              refine h.loadRequired_bind .algebra hchild fun child => ?_
              exact (h.algebraUnaryLast? hfound hload).bind fun op => .refl _
            case h_2 =>
              split
              · refine (h.requireValue (attribute?_algebra ms (by decide))).bind fun name => .refl _
              · exact h.loadTable.bind fun table => .refl _
              · exact .refl _

end Parts

/-! ### Replacements -/

/-- Members that differ in the value of one key accord if the values agree in the key's role. -/
theorem accord_of_agree {role inner : Role} {before after : Members} {key : String} {v w : Value}
    (hkey : role.attribute? (before ++ (.string key, v) :: after) key = some inner)
    (hagree : inner.Agree v w) :
    role.Accord (before ++ (.string key, v) :: after) (before ++ (.string key, w) :: after) := by
  have hlookup (other : String) (x : Value) :
      Members.get? (before ++ (.string key, x) :: after) other =
        (Members.get? before other).or
          (if other = key then some x else Members.get? after other) := by
    rw [Members.get?, List.lookup_append, ← Members.get?, ← Members.get?, Members.get?_cons]
    simp only [Value.string.injEq]
  constructor
  · intro other hother
    have hne : other ≠ key := by
      rintro rfl
      rw [hkey] at hother
      cases hother
    rw [hlookup, hlookup, if_neg hne, if_neg hne]
  · intro other found hother
    rw [hlookup, hlookup]
    cases Members.get? before other with
    | some x => exact .some (.refl _)
    | none =>
        by_cases heq : other = key
        · subst heq
          rw [hkey] at hother
          cases hother
          simp only [if_true, Option.none_or]
          exact .some hagree
        · simp only [if_neg heq, Option.none_or]
          cases Members.get? after other with
          | some x => exact .some (.refl _)
          | none => exact .none

/-- Objects of the same members as attributes of their documents are loaded alike. -/
theorem agree_object {role inner : Role} {ms ms' : Members} {key : String}
    (hkey : role.attribute? ms key = some inner) (h : role.Accord ms ms') :
    role.Agree (.object ms) (.object ms') := by
  cases role with
  | sqlRoot => exact agree_sqlRoot h
  | sql => exact agree_sql h
  | select => exact agree_select h
  | selectItem => exact agree_selectItem h
  | clause => exact agree_clause h
  | algebraRoot => exact agree_algebraRoot h
  | algebra => exact agree_algebra h
  | projectionEntry => exact agree_projectionEntry h
  | term | qualifier | many _ => cases hkey

/-- The text of an object is loaded as the object. -/
theorem load_text {role : Role} (htextual : role.isTextual = true) {ms : Members} {s : String}
    (hread : Json.read? s = some (.object ms)) :
    role.load (.string s) = role.load (.object ms) := by
  obtain ⟨below, hms, rfl⟩ := membersOf_text hread
  cases role with
  | sqlRoot =>
      unfold load loadSqlRoot
      rw [hms]
      rfl
  | sql =>
      unfold load
      rw [loadSql_eq, hms, loadSql_eq (.object below.val)]
      rfl
  | algebraRoot =>
      unfold load loadAlgebraRoot
      rw [hms]
      rfl
  | algebra =>
      unfold load
      rw [loadAlgebra_eq, hms, loadAlgebra_eq (.object below.val)]
      rfl
  | term => exact loadTerm_eq_of_membersOf hms
  | qualifier =>
      unfold load loadQualifier
      simp only [loadTerm_eq_of_membersOf hms]
      rfl
  | select | selectItem | clause | projectionEntry | many _ => cases htextual

end Role

/-- One object of a value of a role is replaced by its text. The object is the value itself, or it
is found below in an attribute or an item that has a role of its own. -/
inductive Recodes : Role → Value → Value → Prop
  | text {role : Role} {ms : Members} {s : String} (htextual : role.isTextual = true)
      (hread : Json.read? s = some (.object ms)) : Recodes role (.object ms) (.string s)
  | member {role inner : Role} (before after : Members) (key : String) {v w : Value}
      (hkey : role.attribute? (before ++ (.string key, v) :: after) key = some inner)
      (below : Recodes inner v w) :
      Recodes role (.object (before ++ (.string key, v) :: after))
        (.object (before ++ (.string key, w) :: after))
  | item {role : Role} {before after : List Value} {v w : Value} (below : Recodes role v w) :
      Recodes (.many role) (.list (before ++ v :: after)) (.list (before ++ w :: after))

/-- Replacing one object by its text changes nothing that is loaded. -/
theorem Recodes.agree {role : Role} {v w : Value} (h : Recodes role v w) : role.Agree v w := by
  induction h with
  | text htextual hread => exact .of_eq (Role.load_text htextual hread).symm
  | member before after key hkey below ih =>
      exact Role.agree_object hkey (Role.accord_of_agree hkey ih)
  | @item role before after v w below ih =>
      have hrest (vs : List Value) : List.Forall₂ role.Agree vs vs :=
        List.forall₂_same.mpr fun v _ => .refl _
      exact Concur.mapM (List.rel_append (hrest before) (.cons ih (hrest after)))

end Document

/-- The role of a whole document. -/
def Grammar.role (isNode : Bool) : Grammar → Document.Role
  | .sql => if isNode then .sql else .sqlRoot
  | .algebra => if isNode then .algebra else .algebraRoot

/-- Documents of either grammar are loaded alike after replacing any choice of their nested
documents by their JSON texts, including the whole document. -/
theorem Grammar.load_eq_ok_iff_of_recodes (grammar : Grammar) (isNode : Bool) {doc doc' : Value}
    (h : Relation.ReflTransGen (Document.Recodes (grammar.role isNode)) doc doc')
    (q : LoadedQuery) :
    grammar.load isNode doc = .ok q ↔ grammar.load isNode doc' = .ok q := by
  induction h with
  | refl => exact Iff.rfl
  | tail _ hstep ih =>
      refine ih.trans ?_
      have hagree := hstep.agree
      cases grammar <;> cases isNode <;> exact (hagree.map _) q

namespace Document.Sample

/-- The members of the condition that is always true. -/
def always : Members :=
  expression (.string "boolean") "constant" [.bool true]

/-- The text of the condition. -/
def alwaysText : String :=
  "\x7b\"datatype\": \"boolean\", \"func\": \"constant\", \"args\": [true]\x7d"

/-- The document of the relation `R`. -/
def table : Value :=
  .object (Members.ofFields [("type", .string "relation"), ("name", .string "R")])

/-- The members of a selection from `R` by a condition. -/
def filtered (condition : Value) : Members :=
  Members.ofFields [("type", .string "selection"), ("arg", condition), ("child", table)]

/-- The text of the selection by the text of the condition. -/
def filteredText : String :=
  "\x7b\"type\": \"selection\", \"arg\": " ++
    "\"\x7b\\\"datatype\\\": \\\"boolean\\\", \\\"func\\\": \\\"constant\\\", " ++
      "\\\"args\\\": [true]\x7d\"" ++
    ", \"child\": \x7b\"type\": \"relation\", \"name\": \"R\"\x7d\x7d"

/-- A root document of the selection. -/
def root (selection : Value) : Value :=
  .object (Members.ofFields [("child", selection)])

/-- What the condition is loaded as. -/
def alwaysTerm : Query.Term :=
  .mk {} (.string "boolean") Expr.constantName [.literal (.bool true)]

theorem load_always : loadTerm (.object always) = .ok alwaysTerm := by
  rw [loadTerm_eq]
  rfl

theorem load_table : loadAlgebra table = .ok (.relation ⟨{}, []⟩ (.string "R")) := by
  rw [table, loadAlgebra_eq]
  rfl

theorem load_filtered : Grammar.algebra.load false (root (.object (filtered (.object always)))) =
    .ok (.algebra (.unary ⟨{}, []⟩ (.selection alwaysTerm)
      (.relation ⟨{}, []⟩ (.string "R")))) := by
  have hsteps : loadAlgebra (.object (filtered (.object always))) = (do
      let child ← loadAlgebra table
      let op ← loadTerm (.object always) >>= fun condition => .ok (.selection condition)
      .ok (.unary ⟨{}, []⟩ op child)) := by
    rw [loadAlgebra_eq]
    rfl
  have hroot : Grammar.algebra.load false (root (.object (filtered (.object always)))) =
      (loadAlgebra (.object (filtered (.object always)))).map .algebra := rfl
  rw [hroot, hsteps, load_table, load_always]
  rfl

/-- A selection and its condition are loaded as if they were objects, also from texts inside each
other. -/
theorem load_eq_ok_iff_of_recodes_filtered :
    ∃ q, Grammar.algebra.load false (root (.object (filtered (.object always)))) = .ok q ∧
      Grammar.algebra.load false (root (.string filteredText)) = .ok q := by
  have hcondition : Recodes .term (.object always) (.string alwaysText) :=
    .text rfl (by decide +kernel)
  have hinside : Recodes .algebra (.object (filtered (.object always)))
      (.object (filtered (.string alwaysText))) :=
    .member [_] _ "arg" rfl hcondition
  have houtside : Recodes .algebra (.object (filtered (.string alwaysText)))
      (.string filteredText) :=
    .text rfl (by decide +kernel)
  refine ⟨_, load_filtered,
    (Grammar.load_eq_ok_iff_of_recodes .algebra false ?_ _).mp load_filtered⟩
  exact .tail (.single (.member [] _ "child" rfl hinside))
    (.member [] _ "child" rfl houtside)

end Document.Sample

end LogicalPlan
