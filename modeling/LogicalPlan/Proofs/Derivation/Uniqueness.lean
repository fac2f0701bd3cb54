import LogicalPlan.Proofs.Derivation.Resolution
import LogicalPlan.Proofs.Plan.Walk

/-!
# Uniqueness of qualified columns

The columns of a schema are unique if no two of them agree in both alias and name. Projections and
new aliases can repeat a qualified column; every other operator derives unique columns from unique
columns. In a plan without those two, over base relations with unique columns, all schemas have
unique columns, and references with an alias are never ambiguous.

## Implementation notes

Names and aliases are compared as keys, so that truth values and numbers of equal magnitude are one
name. Operators that put columns side by side check the result, all others only drop columns.
-/

namespace LogicalPlan

open Outcome

variable {span : Option SourceSpan}

/-- Columns that accept one reference with an alias agree in alias and name. -/
theorem SchemaColumn.same_key_of_accepts {a b : SchemaColumn} {c : Column} (hc : c.relAlias ≠ .null)
    (ha : a.accepts c = true) (hb : b.accepts c = true) : a.key.same b.key = true := by
  have qualified : (c.relAlias == .null) = false := beq_eq_false_iff_ne.mpr hc
  simp only [accepts, qualified, Bool.false_or, Bool.and_eq_true, Value.same_iff] at ha hb
  rw [same_key, Bool.and_eq_true, Value.same_iff, Value.same_iff]
  exact ⟨ha.1.symm.trans hb.1, ha.2.symm.trans hb.2⟩

namespace Schema

/-- No two columns agree in alias and name. -/
def IsUnique (s : Schema) : Prop :=
  s.columns.Pairwise fun a b => a.key.same b.key = false

instance (s : Schema) : Decidable s.IsUnique :=
  inferInstanceAs (Decidable (List.Pairwise _ _))

theorem pairwise_of_uniqueAfter {text : String} {seen : List Value} {columns : List SchemaColumn}
    (h : uniqueAfter text span seen columns = .ok ()) :
    (columns.Pairwise fun a b => a.key.same b.key = false) ∧
      ∀ col ∈ columns, ∀ key ∈ seen, key.same col.key = false := by
  induction columns generalizing seen with
  | nil => exact ⟨.nil, nofun⟩
  | cons col cols ih =>
      unfold uniqueAfter at h
      split at h
      · cases h
      · split at h
        · cases h
        case isFalse hfresh =>
          obtain ⟨pairs, later⟩ := ih h
          have fresh : ∀ key ∈ seen, key.same col.key = false := by
            simpa only [List.any_eq_true, not_exists, not_and, Bool.not_eq_true] using hfresh
          constructor
          · exact .cons (fun col' hcol' => later col' hcol' col.key (by simp)) pairs
          · intro col' hcol' key hkey
            rcases List.mem_cons.mp hcol' with rfl | hcol'
            · exact fresh key hkey
            · exact later col' hcol' key (List.mem_cons_of_mem _ hkey)

/-- What passes the check is unique. -/
theorem isUnique_of_assertUnique {s : Schema} (h : s.assertUnique span = .ok ()) : s.IsUnique :=
  (pairwise_of_uniqueAfter h).1

theorem isUnique_of_concat {s t u : Schema} (h : s.concat t span = .ok u) : u.IsUnique := by
  obtain ⟨_, hunique, h⟩ := bind_eq_ok.mp h
  cases h
  exact isUnique_of_assertUnique hunique

theorem IsUnique.filter {s : Schema} (hs : s.IsUnique) (keep : SchemaColumn → Bool) :
    IsUnique ⟨s.columns.filter keep⟩ :=
  List.Pairwise.filter keep hs

/-- Columns at different positions of a unique schema differ in alias or name. -/
theorem IsUnique.eq_of_same_key {s : Schema} (hs : s.IsUnique) {i j : Nat} {a b : SchemaColumn}
    (ha : s.columns[i]? = some a) (hb : s.columns[j]? = some b) (h : a.key.same b.key = true) :
    i = j := by
  obtain ⟨hi, rfl⟩ := List.getElem?_eq_some_iff.mp ha
  obtain ⟨hj, rfl⟩ := List.getElem?_eq_some_iff.mp hb
  have differ := List.pairwise_iff_getElem.mp hs
  rcases Nat.lt_trichotomy i j with hlt | heq | hgt
  · rw [differ i j hi hj hlt] at h
    cases h
  · exact heq
  · have h' := Value.same_symm h
    rw [differ j i hj hi hgt] at h'
    cases h'

/-- At most one column of a unique schema fits a reference with an alias. -/
theorem IsUnique.eq_of_mem_candidates {s : Schema} (hs : s.IsUnique) {c : Column}
    (hc : c.relAlias ≠ .null) {i j : Nat} (hi : i ∈ candidates c 0 s.columns)
    (hj : j ∈ candidates c 0 s.columns) : i = j := by
  obtain ⟨i, a, ha, rfl, haccepts⟩ := mem_candidates.mp hi
  obtain ⟨j, b, hb, rfl, hbccepts⟩ := mem_candidates.mp hj
  rw [hs.eq_of_same_key ha hb (SchemaColumn.same_key_of_accepts hc haccepts hbccepts)]

theorem indexOf_eq_error {s : Schema} {c : Column} {key : String} {params : Members}
    {reported : Option SourceSpan} (h : s.resolve c span = .error (.query key params reported)) :
    s.indexOf c span = .error (.query key params reported) := by
  unfold resolve at h
  cases hfound : s.indexOf c span with
  | error fault =>
      rw [hfound, error_bind] at h
      rw [Except.error.inj h]
  | ok i =>
      rw [hfound, ok_bind] at h
      split at h
      · cases h
      · cases h

/-- An ambiguous reference fits at least two columns. -/
theorem candidates_of_ambiguous {s : Schema} {c : Column} {params : Members}
    {reported : Option SourceSpan}
    (h : s.indexOf c span = .error (.query Message.columnAmbiguous params reported)) :
    ∃ i j rest, candidates c 0 s.columns = i :: j :: rest := by
  unfold indexOf at h
  split at h
  · split at h
    · cases h
    · simp [Message.columnIndexOutOfRange, Message.columnAmbiguous] at h
  · split at h
    · simp [Message.columnNotFound, Message.columnAmbiguous] at h
    · cases h
    case h_3 _ hnone hsingle =>
      cases hfound : candidates c 0 s.columns with
      | nil => exact absurd hfound hnone
      | cons i rest =>
          cases rest with
          | nil => exact absurd hfound (hsingle i)
          | cons j rest => exact ⟨i, j, rest, rfl⟩

/-- A reference with an alias is never ambiguous in a unique schema. -/
theorem IsUnique.resolve_ne_ambiguous {s : Schema} (hs : s.IsUnique) {c : Column}
    (hc : c.relAlias ≠ .null) (params : Members) (reported : Option SourceSpan) :
    s.resolve c span ≠ .error (.query Message.columnAmbiguous params reported) := by
  intro h
  obtain ⟨i, j, rest, hfound⟩ := candidates_of_ambiguous (indexOf_eq_error h)
  have nodup : (i :: j :: rest).Nodup := hfound ▸ nodup_candidates s.columns 0
  have same : i = j :=
    hs.eq_of_mem_candidates hc (by rw [hfound]; simp) (by rw [hfound]; simp)
  simp [same] at nodup

end Schema

/-! ### Operators -/

/-- The operator can repeat a qualified column: it picks columns, or gives all of them one alias. -/
def UnaryOp.mayRepeat : UnaryOp → Bool
  | .projection _ | .renameRelation _ => true
  | _ => false

theorem UnaryOp.derive_isUnique {op : UnaryOp} (hop : op.mayRepeat = false) {s t : Schema}
    (hs : s.IsUnique) (h : op.derive span s = .ok t) : t.IsUnique := by
  cases op with
  | selection condition =>
      obtain ⟨_, -, h⟩ := bind_eq_ok.mp h
      cases h
      exact hs
  | projection columns => cases hop
  | orderBy keys =>
      obtain ⟨_, -, h⟩ := bind_eq_ok.mp h
      cases h
      exact hs
  | groupBy groups aggregates =>
      obtain ⟨grouped, -, h⟩ := bind_eq_ok.mp h
      obtain ⟨computed, -, h⟩ := bind_eq_ok.mp h
      obtain ⟨_, hunique, h⟩ := bind_eq_ok.mp h
      cases h
      exact Schema.isUnique_of_assertUnique hunique
  | renameColumns renamings =>
      obtain ⟨columns, -, h⟩ := bind_eq_ok.mp h
      obtain ⟨_, hunique, h⟩ := bind_eq_ok.mp h
      cases h
      exact Schema.isUnique_of_assertUnique hunique
  | renameRelation relAlias => cases hop

theorem JoinCondition.derive_isUnique {condition : JoinCondition} {s t u : Schema}
    (h : condition.derive span s t = .ok u) : u.IsUnique := by
  cases condition with
  | theta condition =>
      obtain ⟨combined, hcombined, h⟩ := bind_eq_ok.mp h
      obtain ⟨_, -, h⟩ := bind_eq_ok.mp h
      cases h
      exact Schema.isUnique_of_concat hcombined
  | natural columns =>
      obtain ⟨shared, -, h⟩ := bind_eq_ok.mp h
      obtain ⟨compared, -, h⟩ := bind_eq_ok.mp h
      exact Schema.isUnique_of_concat h
  | unknown v =>
      obtain ⟨text, -, h⟩ := bind_eq_ok.mp h
      cases h

theorem BinaryOp.derive_isUnique {op : BinaryOp} {s t u : Schema} (hs : s.IsUnique)
    (ht : t.IsUnique) (h : op.derive span s t = .ok u) : u.IsUnique := by
  cases op with
  | cross => exact Schema.isUnique_of_concat h
  | join kind condition => exact condition.derive_isUnique h
  | semi keepsLeft =>
      cases h
      cases keepsLeft with
      | true => exact hs
      | false => exact ht
  | anti =>
      cases h
      exact hs
  | union | intersect | difference =>
      simp only [derive] at h
      split at h
      · cases h
        exact hs
      · cases h
  | division =>
      simp only [derive] at h
      split at h
      · cases h
      · split at h
        · cases h
          exact hs.filter _
        · cases h

/-! ### Plans -/

namespace Plan

theorem Derives.of_mem_children {p q : Plan} (hp : p.Derives) (hq : q ∈ p.children) :
    q.Derives := by
  cases p with
  | relation notes base => cases hq
  | unary notes op input =>
      rw [List.mem_singleton.mp hq]
      exact hp.input
  | binary notes op left right =>
      rcases List.mem_pair.mp hq with rfl | rfl
      · exact hp.inputs.1
      · exact hp.inputs.2

/-- In a plan with a schema every node has one. -/
theorem Derives.of_mem_walk {p node : Plan} (hp : p.Derives) (hnode : node ∈ p.walk) :
    node.Derives :=
  Plan.of_mem_walk (fun _ hp _ hq => hp.of_mem_children hq) hp hnode

/-- The operator at the root can repeat a qualified column. -/
def mayRepeat : Plan → Bool
  | .unary _ op _ => op.mayRepeat
  | _ => false

/-- If the root is a base relation with a schema, its columns are unique. -/
def HasUniqueBase : Plan → Prop
  | .relation _ base => ∀ s ∈ base.schema, s.IsUnique
  | _ => True

instance : DecidablePred HasUniqueBase
  | .relation _ base => inferInstanceAs (Decidable (∀ s ∈ base.schema, s.IsUnique))
  | .unary _ _ _ => isTrue trivial
  | .binary _ _ _ _ => isTrue trivial

/-- What an operator makes of inputs with unique columns has unique columns. -/
theorem isUnique_of_children {p : Plan} (hp : p.mayRepeat = false) (hbase : p.HasUniqueBase)
    (hchildren : ∀ q ∈ p.children, ∀ t, q.schema = .ok t → t.IsUnique) {s : Schema}
    (h : p.schema = .ok s) : s.IsUnique := by
  cases p with
  | relation notes base =>
      unfold schema at h
      split at h
      · cases h
      case h_2 hs =>
        cases h
        exact hbase s hs
  | unary notes op input =>
      obtain ⟨inner, hinner, h⟩ := bind_eq_ok.mp h
      exact op.derive_isUnique hp (hchildren input (by simp [children]) inner hinner) h
  | binary notes op left right =>
      obtain ⟨leftSchema, hleft, h⟩ := bind_eq_ok.mp h
      obtain ⟨rightSchema, hright, h⟩ := bind_eq_ok.mp h
      exact op.derive_isUnique (hchildren left (by simp [children]) leftSchema hleft)
        (hchildren right (by simp [children]) rightSchema hright) h

/-- A plan whose operators repeat no column, over bases with unique columns, has unique columns. -/
theorem isUnique_of_schema {p : Plan}
    (hp : ∀ node ∈ p.walk, node.mayRepeat = false ∧ node.HasUniqueBase) {s : Schema}
    (h : p.schema = .ok s) : s.IsUnique := by
  induction p generalizing s with
  | relation notes base => exact isUnique_of_children rfl (hp _ (mem_walk_self _)).2 nofun h
  | unary notes op input ih =>
      simp only [walk, List.mem_cons, forall_eq_or_imp] at hp
      have below : ∀ q ∈ (unary notes op input).children, ∀ t, q.schema = .ok t → t.IsUnique := by
        intro q hq t ht
        rw [List.mem_singleton.mp hq] at ht
        exact ih hp.2 ht
      exact isUnique_of_children hp.1.1 hp.1.2 below h
  | binary notes op left right ihl ihr =>
      simp only [walk, List.mem_cons, List.mem_append, forall_eq_or_imp] at hp
      have below : ∀ q ∈ (binary notes op left right).children, ∀ t, q.schema = .ok t →
          t.IsUnique := by
        intro q hq t ht
        rcases List.mem_pair.mp hq with rfl | rfl
        · exact ihl (fun node hnode => hp.2 node (.inl hnode)) ht
        · exact ihr (fun node hnode => hp.2 node (.inr hnode)) ht
      exact isUnique_of_children hp.1.1 hp.1.2 below h

/-- Operators keep columns unique, unless they pick columns or give all of them one alias: over
inputs with unique columns they have unique columns themselves. In a plan without such operators,
over base relations with unique columns, all schemas have unique columns, and no reference with an
alias is ambiguous in any of them. -/
theorem unique_columns :
    (∀ p : Plan, p.mayRepeat = false → p.HasUniqueBase →
      (∀ q ∈ p.children, ∀ t, q.schema = .ok t → t.IsUnique) →
        ∀ s, p.schema = .ok s → s.IsUnique) ∧
    ∀ p : Plan, (∀ node ∈ p.walk, node.mayRepeat = false ∧ node.HasUniqueBase) → p.Derives →
      ∀ node ∈ p.walk, ∃ s, node.schema = .ok s ∧ s.IsUnique ∧
        ∀ c span params reported, c.relAlias ≠ .null →
          s.resolve c span ≠ .error (.query Message.columnAmbiguous params reported) := by
  constructor
  · intro p hp hbase hchildren s
    exact isUnique_of_children hp hbase hchildren
  · intro p hp hd node hnode
    obtain ⟨s, hs⟩ := hd.of_mem_walk hnode
    have unique : s.IsUnique :=
      isUnique_of_schema (fun below hbelow => hp below (walk_subset_of_mem_walk hnode hbelow)) hs
    exact ⟨s, hs, unique, fun c span params reported hc => unique.resolve_ne_ambiguous hc _ _⟩

namespace Sample

/-- A relation with one column `a`. -/
def relation (name : String) : Plan :=
  .relation {} {
    name := .string name
    schema := some ⟨[⟨.string "a", .string name, .string "number"⟩]⟩ }

/-- Pairs of rows of two relations, the second one with its column renamed to `b`. -/
def paired : Plan :=
  .binary {} .cross (relation "R")
    (.unary {} (.renameColumns [⟨.string "b", ⟨.string "a", .null⟩⟩]) (relation "S"))

/-- The columns of the pairs are unique, and `R.a` is no ambiguous reference to them. -/
theorem unique_columns_paired :
    (∀ node ∈ paired.walk, node.mayRepeat = false ∧ node.HasUniqueBase) ∧ paired.Derives ∧
      ∃ s, paired.schema = .ok s ∧ s.IsUnique ∧ ∀ span params reported,
        s.resolve ⟨.string "a", .string "R"⟩ span ≠
          .error (.query Message.columnAmbiguous params reported) := by
  have keeps : ∀ node ∈ paired.walk, node.mayRepeat = false ∧ node.HasUniqueBase := by decide
  have derives : paired.Derives := ⟨_, rfl⟩
  obtain ⟨s, hs, -, unambiguous⟩ := unique_columns.2 paired keeps derives paired (mem_walk_self _)
  have inputs : ∀ q ∈ paired.children, ∀ t, q.schema = .ok t → t.IsUnique := by
    simp only [paired, children, List.mem_cons, List.not_mem_nil, or_false, forall_eq_or_imp,
      forall_eq]
    constructor <;> rintro t ⟨⟩ <;> decide
  have unique : s.IsUnique := unique_columns.1 paired rfl trivial inputs s hs
  exact ⟨keeps, derives, s, hs, unique, fun span params reported => unambiguous _ _ _ _ (by decide)⟩

end Sample

end Plan

end LogicalPlan
