import LogicalPlan.Proofs.Derivation.Joins

/-!
# Types under set operations

A set operation compares the columns of its inputs one by one and has the schema of its left input.
Unknown types meet all types, so meeting is not transitive: what is compared are the types of the
leftmost base relations, and an unknown one among them hides what stands to the right of it. The
main statement tells where types cannot conflict, and for which base relations the bracketing does
not matter.

## Implementation notes

A leftmost base relation of a left input is a left input itself, so the types that operations below
the root compare are described by base relations, whatever the shape of the tree. Of the root this
is not needed: nothing compares the type that it reports.
-/

namespace LogicalPlan

open Outcome

/-- The type of a column is not known. It meets all types. -/
def Value.isUnknown (type : Value) : Bool :=
  type.same (.string "null")

/-- What counts as an unknown type is one. -/
theorem Value.isUnknown_congr {v w : Value} (h : v.same w = true) : v.isUnknown = w.isUnknown := by
  rw [Bool.eq_iff_iff, isUnknown, isUnknown, same_iff, same_iff, same_iff.mp h]

theorem Value.same_trans {u v w : Value} (h : u.same v = true) (h' : v.same w = true) :
    u.same w = true :=
  same_iff.mpr ((same_iff.mp h).trans (same_iff.mp h'))

namespace Schema

/-- The type of the column at a position. -/
def typeAt? (s : Schema) (i : Nat) : Option Value :=
  s.columns[i]?.map (·.type)

theorem exists_typeAt? {s t : Schema} (hsize : s.size = t.size) {i : Nat} {type : Value}
    (h : s.typeAt? i = some type) : ∃ other, t.typeAt? i = some other := by
  obtain ⟨col, hcol, -⟩ := Option.map_eq_some_iff.mp h
  have bound : i < t.columns.length := hsize.subst (List.getElem?_eq_some_iff.mp hcol).1
  exact ⟨_, congrArg (Option.map _) (List.getElem?_eq_getElem bound)⟩

/-- Schemas meet in a set operation if they have as many columns, and if the types at one position
are the same one where both are known. -/
theorem isUnifiable_iff {s t : Schema} :
    s.isUnifiable t = true ↔ s.size = t.size ∧
      ∀ i type other, s.typeAt? i = some type → t.typeAt? i = some other →
        type.isUnknown = false → other.isUnknown = false → type.same other = true := by
  have unifies (a b : SchemaColumn) : a.unifies b = true ↔
      (a.type.isUnknown = false → b.type.isUnknown = false → a.type.same b.type = true) := by
    unfold SchemaColumn.unifies Value.isUnknown
    cases a.type.same b.type <;> cases a.type.same (.string "null") <;>
      cases b.type.same (.string "null") <;> decide
  simp only [isUnifiable, Bool.and_eq_true, beq_iff_eq, List.all_eq_true, unifies, typeAt?,
    Option.map_eq_some_iff]
  refine and_congr_right fun _ => ⟨?_, ?_⟩
  · rintro h i _ _ ⟨a, ha, rfl⟩ ⟨b, hb, rfl⟩
    exact h (a, b) (List.mem_of_getElem? (List.getElem?_zip_eq_some.mpr ⟨ha, hb⟩))
  · rintro h ⟨a, b⟩ hmem
    obtain ⟨i, hi⟩ := List.getElem?_of_mem hmem
    obtain ⟨ha, hb⟩ := List.getElem?_zip_eq_some.mp hi
    exact h i _ _ ⟨a, ha, rfl⟩ ⟨b, hb, rfl⟩

end Schema

namespace Relation

/-- The type of the column at a position, if the relation has a schema and such a column. -/
def typeAt? (base : Relation) (i : Nat) : Option Value :=
  base.schema.bind (·.typeAt? i)

theorem typeAt?_eq {base : Relation} {s : Schema} (h : base.schema = some s) (i : Nat) :
    base.typeAt? i = s.typeAt? i := by
  rw [typeAt?, h, Option.bind_some]

/-- The relation has no unknown type at the position. -/
def IsKnownAt (base : Relation) (i : Nat) : Prop :=
  ∀ type ∈ base.typeAt? i, type.isUnknown = false

instance (base : Relation) (i : Nat) : Decidable (base.IsKnownAt i) :=
  inferInstanceAs (Decidable (∀ _ ∈ _, _))

/-- The types of both relations at the position are known and differ. -/
def ConflictAt (a b : Relation) (i : Nat) : Prop :=
  ∃ type ∈ a.typeAt? i, ∃ other ∈ b.typeAt? i,
    type.isUnknown = false ∧ other.isUnknown = false ∧ type.same other = false

instance (a b : Relation) (i : Nat) : Decidable (a.ConflictAt b i) :=
  inferInstanceAs (Decidable (∃ _ ∈ _, _))

theorem not_conflictAt_self (a : Relation) (i : Nat) : ¬ a.ConflictAt a i := by
  rintro ⟨type, htype, other, hother, -, -, differ⟩
  cases htype.symm.trans hother
  rw [Value.same_iff.mpr rfl] at differ
  cases differ

theorem ConflictAt.symm {a b : Relation} {i : Nat} (h : a.ConflictAt b i) : b.ConflictAt a i := by
  obtain ⟨type, htype, other, hother, known, known', differ⟩ := h
  refine ⟨other, hother, type, htype, known', known, Bool.eq_false_iff.mpr fun same => ?_⟩
  rw [Value.same_symm same] at differ
  cases differ

theorem ConflictAt.isKnownAt {a b : Relation} {i : Nat} (h : a.ConflictAt b i) :
    b.IsKnownAt i := by
  obtain ⟨-, -, other, hother, -, known, -⟩ := h
  intro type htype
  cases hother.symm.trans htype
  exact known

/-- Both relations have schemas, which meet in a set operation. -/
def Meets (a b : Relation) : Prop :=
  ∃ s ∈ a.schema, ∃ t ∈ b.schema, s.isUnifiable t = true

instance (a b : Relation) : Decidable (a.Meets b) :=
  inferInstanceAs (Decidable (∃ _ ∈ _, _))

/-- Relations with equally many columns meet if they conflict nowhere. -/
theorem meets_iff {a b : Relation} {s t : Schema} (hs : a.schema = some s)
    (ht : b.schema = some t) :
    a.Meets b ↔ s.size = t.size ∧ ∀ i, ¬ a.ConflictAt b i := by
  have schemas : a.Meets b ↔ s.isUnifiable t = true := by simp [Meets, hs, ht]
  rw [schemas, Schema.isUnifiable_iff]
  refine and_congr_right fun _ => forall_congr' fun i => ?_
  simp only [ConflictAt, typeAt?_eq hs, typeAt?_eq ht, Option.mem_def, not_exists, not_and,
    Bool.not_eq_false]
  constructor
  · intro h type htype other hother
    exact h type other htype hother
  · intro h type other htype hother
    exact h type htype other hother

end Relation

/-- Two of the relations conflict at a position at which all relations in front of the later one
have known types. -/
def ConflictOpenly (bases : List Relation) : Prop :=
  ∃ front b back i, bases = front ++ b :: back ∧ (∀ base ∈ front, base.IsKnownAt i) ∧
    ∃ a ∈ front, a.ConflictAt b i

/-- The operator is a union, an intersection or a difference. -/
def BinaryOp.isSetOperation : BinaryOp → Bool
  | .union | .intersect | .difference => true
  | _ => false

theorem BinaryOp.derive_eq_ok_of_isSetOperation {op : BinaryOp} (hop : op.isSetOperation = true)
    {span : Option SourceSpan} {s t u : Schema} :
    op.derive span s t = .ok u ↔ s.isUnifiable t = true ∧ s = u := by
  cases op with
  | union | intersect | difference =>
      rw [derive]
      split
      case isTrue h => simp [h]
      case isFalse h => simp [h]
  | _ => cases hop

namespace Plan

/-- The plan consists of set operations over base relations. -/
def isSetTree : Plan → Bool
  | .relation _ _ => true
  | .unary _ _ _ => false
  | .binary _ op left right => op.isSetOperation && left.isSetTree && right.isSetTree

/-- The base relations of the plan from left to right. -/
def bases : Plan → List Relation
  | .relation _ base => [base]
  | .unary _ _ input => input.bases
  | .binary _ _ left right => left.bases ++ right.bases

/-- The base relation at the root, if the plan is nothing else. -/
def ownBase : Plan → List Relation
  | .relation _ base => [base]
  | _ => []

/-- The base relations of the plan that are left inputs. -/
def leftBases : Plan → List Relation
  | .relation _ _ => []
  | .unary _ _ input => input.leftBases
  | .binary _ _ left right => left.ownBase ++ left.leftBases ++ right.leftBases

/-- The base relations of the plan that are left inputs of operators below its root. -/
def innerLeftBases : Plan → List Relation
  | .relation _ _ => []
  | .unary _ _ input => input.innerLeftBases
  | .binary _ _ left right => left.leftBases ++ right.leftBases

theorem schema_relation_eq_ok_iff {notes : Notes} {base : Relation} {s : Schema} :
    (relation notes base).schema = .ok s ↔ base.schema = some s := by
  unfold schema
  cases base.schema <;> simp

theorem leftBases_subset (p : Plan) : p.leftBases ⊆ p.bases := by
  have own (q : Plan) : q.ownBase ⊆ q.bases := by
    cases q with
    | relation notes base => exact List.Subset.refl _
    | unary | binary => exact List.nil_subset _
  induction p with
  | relation notes base => exact List.nil_subset _
  | unary notes op input ih => exact ih
  | binary notes op left right ihl ihr =>
      have below : left.ownBase ++ left.leftBases ⊆ left.bases :=
        List.append_subset.mpr ⟨own left, ihl⟩
      rw [leftBases, bases]
      exact List.append_subset.mpr ⟨List.subset_append_of_subset_left _ below,
        List.subset_append_of_subset_right _ ihr⟩

section SetOperation

variable {notes : Notes} {op : BinaryOp} {left right : Plan}

theorem isSetTree_binary :
    (binary notes op left right).isSetTree = true ↔
      op.isSetOperation = true ∧ left.isSetTree = true ∧ right.isSetTree = true := by
  rw [isSetTree, Bool.and_eq_true, Bool.and_eq_true, and_assoc]

/-- A set operation has the schema of its left input, if the one of its right input meets it. -/
theorem schema_setOperation_eq_ok_iff (hop : op.isSetOperation = true) {s : Schema} :
    (binary notes op left right).schema = .ok s ↔
      left.schema = .ok s ∧ ∃ t, right.schema = .ok t ∧ s.isUnifiable t = true := by
  rw [schema_binary_eq_ok_iff]
  constructor
  · rintro ⟨s', t, hs, ht, h⟩
    obtain ⟨hmeet, rfl⟩ := (BinaryOp.derive_eq_ok_of_isSetOperation hop).mp h
    exact ⟨hs, t, ht, hmeet⟩
  · rintro ⟨hs, t, ht, hmeet⟩
    exact ⟨s, t, hs, ht, (BinaryOp.derive_eq_ok_of_isSetOperation hop).mpr ⟨hmeet, rfl⟩⟩

end SetOperation

/-- All base relations have as many columns as the plan. -/
theorem size_of_mem_bases {p : Plan} (hp : p.isSetTree = true) {s : Schema}
    (h : p.schema = .ok s) : ∀ base ∈ p.bases, ∃ t, base.schema = some t ∧ t.size = s.size := by
  induction p generalizing s with
  | relation notes base =>
      intro other hother
      rw [List.mem_singleton.mp hother]
      exact ⟨s, schema_relation_eq_ok_iff.mp h, rfl⟩
  | unary notes op input ih => cases hp
  | binary notes op left right ihl ihr =>
      obtain ⟨hop, hleft, hright⟩ := isSetTree_binary.mp hp
      obtain ⟨hs, t, ht, hmeet⟩ := (schema_setOperation_eq_ok_iff hop).mp h
      intro base hbase
      rcases List.mem_append.mp hbase with hbase | hbase
      · exact ihl hleft hs base hbase
      · obtain ⟨u, hu, hsize⟩ := ihr hright ht base hbase
        exact ⟨u, hu, hsize.trans (Schema.isUnifiable_iff.mp hmeet).1.symm⟩

/-- A tree of set operations has the schema of its first base relation. -/
theorem exists_first {p : Plan} (hp : p.isSetTree = true) {s : Schema} (h : p.schema = .ok s) :
    ∃ first rest, p.bases = first :: rest ∧ first.schema = some s := by
  induction p generalizing s with
  | relation notes base => exact ⟨base, [], rfl, schema_relation_eq_ok_iff.mp h⟩
  | unary notes op input ih => cases hp
  | binary notes op left right ihl ihr =>
      obtain ⟨hop, hleft, -⟩ := isSetTree_binary.mp hp
      obtain ⟨first, rest, hbases, hfirst⟩ := ihl hleft ((schema_setOperation_eq_ok_iff hop).mp h).1
      exact ⟨first, rest ++ right.bases, by rw [bases, hbases, List.cons_append], hfirst⟩

/-- The schema of a left input is the one of a base relation that is a left input. -/
theorem exists_leftBase {p : Plan} (hp : p.isSetTree = true) {s : Schema} (h : p.schema = .ok s) :
    ∃ base ∈ p.ownBase ++ p.leftBases, base.schema = some s := by
  induction p generalizing s with
  | relation notes base => exact ⟨base, by simp [ownBase], schema_relation_eq_ok_iff.mp h⟩
  | unary notes op input ih => cases hp
  | binary notes op left right ihl ihr =>
      obtain ⟨hop, hleft, -⟩ := isSetTree_binary.mp hp
      obtain ⟨base, hbase, hschema⟩ := ihl hleft ((schema_setOperation_eq_ok_iff hop).mp h).1
      exact ⟨base, List.mem_append_right [] (List.mem_append_left _ hbase), hschema⟩

/-- Where a base relation has a column, the plan reports a type. -/
theorem exists_reported {p : Plan} (hp : p.isSetTree = true) {s : Schema} (h : p.schema = .ok s)
    {base : Relation} (hbase : base ∈ p.bases) {i : Nat} {type : Value}
    (htype : base.typeAt? i = some type) : ∃ own, s.typeAt? i = some own := by
  obtain ⟨t, ht, hsize⟩ := size_of_mem_bases hp h base hbase
  rw [Relation.typeAt?_eq ht] at htype
  exact Schema.exists_typeAt? hsize htype

/-- Where all left inputs have known types, every known type is the one that the plan reports. -/
theorem same_typeAt_of_mem_bases {p : Plan} (hp : p.isSetTree = true) {s : Schema}
    (h : p.schema = .ok s) {i : Nat} {own : Value} (hown : s.typeAt? i = some own)
    (hleft : ∀ base ∈ p.leftBases, base.IsKnownAt i) :
    ∀ base ∈ p.bases, ∀ type, base.typeAt? i = some type → type.isUnknown = false →
      type.same own = true := by
  induction p generalizing s own with
  | relation notes base =>
      intro other hother type htype _
      rw [List.mem_singleton.mp hother, Relation.typeAt?_eq (schema_relation_eq_ok_iff.mp h),
        hown] at htype
      cases htype
      exact Value.same_iff.mpr rfl
  | unary notes op input ih => cases hp
  | binary notes op left right ihl ihr =>
      obtain ⟨hop, hsetLeft, hsetRight⟩ := isSetTree_binary.mp hp
      obtain ⟨hs, t, ht, hmeet⟩ := (schema_setOperation_eq_ok_iff hop).mp h
      obtain ⟨hsize, htypes⟩ := Schema.isUnifiable_iff.mp hmeet
      obtain ⟨other, hother⟩ := Schema.exists_typeAt? hsize hown
      simp only [leftBases, List.mem_append] at hleft
      intro base hbase type htype known
      rcases List.mem_append.mp hbase with hbase | hbase
      · exact ihl hsetLeft hs hown (fun b hb => hleft b (.inl (.inr hb))) base hbase type htype
          known
      · have right := ihr hsetRight ht hother (fun b hb => hleft b (.inr hb)) base hbase type htype
          known
        -- The right input has a known type here: what it reports is known and meets the left one.
        have reported : other.isUnknown = false := Value.isUnknown_congr right ▸ known
        obtain ⟨first, hfirst, hschema⟩ := exists_leftBase hsetLeft hs
        have ownKnown : own.isUnknown = false := by
          refine hleft first (.inl (List.mem_append.mp hfirst)) own ?_
          rw [Option.mem_def, Relation.typeAt?_eq hschema, hown]
        exact Value.same_trans right
          (Value.same_symm (htypes i own other hown hother ownKnown reported))

/-- Where all left inputs have known types, base relations do not conflict. -/
theorem not_conflictAt_of_leftBases {p : Plan} (hp : p.isSetTree = true) {s : Schema}
    (h : p.schema = .ok s) {i : Nat} (hleft : ∀ base ∈ p.leftBases, base.IsKnownAt i) :
    ∀ a ∈ p.bases, ∀ b ∈ p.bases, ¬ a.ConflictAt b i := by
  rintro a ha b hb ⟨type, htype, other, hother, known, known', differ⟩
  obtain ⟨own, hown⟩ := exists_reported hp h ha htype
  have typeOwn := same_typeAt_of_mem_bases hp h hown hleft a ha type htype known
  have otherOwn := same_typeAt_of_mem_bases hp h hown hleft b hb other hother known'
  rw [Value.same_trans typeOwn (Value.same_symm otherOwn)] at differ
  cases differ

/-- Where all left inputs of a plan have known types, a relation that its schema meets conflicts
with whatever the base relations of the plan conflict with. -/
theorem conflictAt_of_isUnifiable {p : Plan} (hp : p.isSetTree = true) {s t : Schema}
    (h : p.schema = .ok s) (hmeet : s.isUnifiable t = true) {i : Nat}
    (hleft : ∀ base ∈ p.leftBases, base.IsKnownAt i) {a b c : Relation} (ha : a ∈ p.bases)
    (hab : a.ConflictAt b i) (hc : c.schema = some t) (known : c.IsKnownAt i) :
    c.ConflictAt b i := by
  obtain ⟨type, htype, other, hother, typeKnown, otherKnown, differ⟩ := hab
  obtain ⟨own, hown⟩ := exists_reported hp h ha htype
  have typeOwn := same_typeAt_of_mem_bases hp h hown hleft a ha type htype typeKnown
  have ownKnown : own.isUnknown = false := Value.isUnknown_congr typeOwn ▸ typeKnown
  obtain ⟨hsize, htypes⟩ := Schema.isUnifiable_iff.mp hmeet
  obtain ⟨met, hmet⟩ := Schema.exists_typeAt? hsize hown
  have cType : c.typeAt? i = some met := by
    rw [Relation.typeAt?_eq hc, hmet]
  have metKnown := known met cType
  refine ⟨met, cType, other, hother, metKnown, otherKnown, Bool.eq_false_iff.mpr fun same => ?_⟩
  have ownMet := htypes i own met hown hmet ownKnown metKnown
  rw [Value.same_trans typeOwn (Value.same_trans ownMet same)] at differ
  cases differ

/-- Where all left inputs below the root have known types, base relations do not conflict. -/
theorem not_conflictAt_of_schema {p : Plan} (hp : p.isSetTree = true) {s : Schema}
    (h : p.schema = .ok s) {i : Nat} (hinner : ∀ base ∈ p.innerLeftBases, base.IsKnownAt i) :
    ∀ a ∈ p.bases, ∀ b ∈ p.bases, ¬ a.ConflictAt b i := by
  cases p with
  | relation notes base =>
      intro a ha b hb
      rw [List.mem_singleton.mp ha, List.mem_singleton.mp hb]
      exact base.not_conflictAt_self i
  | unary notes op input => cases hp
  | binary notes op left right =>
      obtain ⟨hop, hsetLeft, hsetRight⟩ := isSetTree_binary.mp hp
      obtain ⟨hs, t, ht, hmeet⟩ := (schema_setOperation_eq_ok_iff hop).mp h
      obtain ⟨knownLeft, knownRight⟩ := List.forall_mem_append.mp hinner
      have across {a b : Relation} (ha : a ∈ left.bases) (hb : b ∈ right.bases) :
          ¬ a.ConflictAt b i := by
        intro hab
        obtain ⟨first, rest, hbases, hschema⟩ := exists_first hsetRight ht
        -- The right input has a known type here, so its first relation, which it reports, has one.
        have known : first.IsKnownAt i := by
          obtain ⟨-, -, other, hother, -, otherKnown, -⟩ := hab
          intro met hmet
          rw [Option.mem_def, Relation.typeAt?_eq hschema] at hmet
          have same := same_typeAt_of_mem_bases hsetRight ht hmet knownRight b hb other hother
            otherKnown
          exact Value.isUnknown_congr same ▸ otherKnown
        have conflict := conflictAt_of_isUnifiable hsetLeft hs hmeet knownLeft ha hab hschema known
        exact not_conflictAt_of_leftBases hsetRight ht knownRight first (by simp [hbases]) b hb
          conflict
      intro a ha b hb hab
      rcases List.mem_append.mp ha with ha | ha <;> rcases List.mem_append.mp hb with hb | hb
      · exact not_conflictAt_of_leftBases hsetLeft hs knownLeft a ha b hb hab
      · exact across ha hb hab
      · exact across hb ha hab.symm
      · exact not_conflictAt_of_leftBases hsetRight ht knownRight a ha b hb hab

/-- Base relations that meet each other are accepted in every tree. -/
theorem schema_of_meets {p : Plan} (hp : p.isSetTree = true)
    (hmeets : ∀ a ∈ p.bases, ∀ b ∈ p.bases, a.Meets b) : ∃ s, p.schema = .ok s := by
  induction p with
  | relation notes base =>
      obtain ⟨s, hs, -⟩ := hmeets base (List.mem_singleton_self _) base (List.mem_singleton_self _)
      exact ⟨s, schema_relation_eq_ok_iff.mpr hs⟩
  | unary notes op input ih => cases hp
  | binary notes op left right ihl ihr =>
      obtain ⟨hop, hleft, hright⟩ := isSetTree_binary.mp hp
      obtain ⟨s, hs⟩ := ihl hleft fun a ha b hb =>
        hmeets a (List.mem_append_left _ ha) b (List.mem_append_left _ hb)
      obtain ⟨t, ht⟩ := ihr hright fun a ha b hb =>
        hmeets a (List.mem_append_right _ ha) b (List.mem_append_right _ hb)
      -- Both inputs report the schemas of base relations.
      obtain ⟨first, rest, hbases, hfirst⟩ := exists_first hleft hs
      obtain ⟨head, tail, hbases', hhead⟩ := exists_first hright ht
      obtain ⟨s', hs', t', ht', hmeet⟩ := hmeets first (by simp [bases, hbases]) head
        (by simp [bases, hbases'])
      cases hfirst.symm.trans hs'
      cases hhead.symm.trans ht'
      exact ⟨s, (schema_setOperation_eq_ok_iff hop).mpr ⟨hs, t, ht, hmeet⟩⟩

/-- An item of two lists side by side stands in the first one, or in the second one behind what is
in front of it there. -/
theorem append_eq_append_cons {α : Type} {ls rs front back : List α} {b : α}
    (h : ls ++ rs = front ++ b :: back) :
    (∃ rest, ls = front ++ b :: rest) ∨
      ∃ middle, front = ls ++ middle ∧ rs = middle ++ b :: back := by
  rcases List.append_eq_append_iff.mp h with ⟨middle, hfront, hright⟩ | ⟨rest, hleft, hback⟩
  · exact .inr ⟨middle, hfront, hright⟩
  · cases rest with
    | nil => exact .inr ⟨[], by simpa using hleft.symm, hback.symm⟩
    | cons c rest =>
        obtain ⟨rfl, -⟩ := List.cons.inj hback
        exact .inl ⟨rest, hleft⟩

/-- Base relations that conflict openly are refused in every tree. -/
theorem schema_ne_ok_of_conflictOpenly {p : Plan} (hp : p.isSetTree = true)
    (hconflict : ConflictOpenly p.bases) (s : Schema) : p.schema ≠ .ok s := by
  induction p generalizing s with
  | relation notes base =>
      obtain ⟨front, b, back, i, hbases, -, a, ha, -⟩ := hconflict
      cases front with
      | nil => cases ha
      | cons c front => simp [bases] at hbases
  | unary notes op input ih => cases hp
  | binary notes op left right ihl ihr =>
      intro h
      obtain ⟨hop, hleft, hright⟩ := isSetTree_binary.mp hp
      obtain ⟨hs, t, ht, hmeet⟩ := (schema_setOperation_eq_ok_iff hop).mp h
      obtain ⟨front, b, back, i, hbases, known, a, ha, hab⟩ := hconflict
      rcases append_eq_append_cons hbases with ⟨rest, hrest⟩ | ⟨middle, rfl, hmiddle⟩
      · exact ihl hleft ⟨front, b, rest, i, hrest, known, a, ha, hab⟩ s hs
      obtain ⟨knownLeft, knownMiddle⟩ := List.forall_mem_append.mp known
      rcases List.mem_append.mp ha with ha | ha
      · -- The right input reports the types of its first relation, which conflicts as `a` does.
        obtain ⟨head, tail, hhead, hschema⟩ := exists_first hright ht
        have conflict (known : head.IsKnownAt i) : head.ConflictAt b i :=
          conflictAt_of_isUnifiable hleft hs hmeet
            (fun base hbase => knownLeft base (left.leftBases_subset hbase)) ha hab hschema known
        cases middle with
        | nil =>
            obtain ⟨rfl, -⟩ := List.cons.inj (hmiddle.symm.trans hhead)
            exact b.not_conflictAt_self i (conflict hab.isKnownAt)
        | cons c middle =>
            obtain ⟨rfl, -⟩ := List.cons.inj (hmiddle.symm.trans hhead)
            exact ihr hright ⟨c :: middle, b, back, i, hmiddle, knownMiddle, c,
              List.mem_cons_self, conflict (knownMiddle c List.mem_cons_self)⟩ t ht
      · exact ihr hright ⟨middle, b, back, i, hmiddle, knownMiddle, a, ha, hab⟩ t ht

/-- Without conflicts, all trees over the same base relations are accepted if one is. -/
theorem schema_of_schema {p q : Plan} (hp : p.isSetTree = true) (hq : q.isSetTree = true)
    (hbases : q.bases = p.bases)
    (hconflicts : ∀ a ∈ p.bases, ∀ b ∈ p.bases, ∀ i, ¬ a.ConflictAt b i) {s : Schema}
    (h : p.schema = .ok s) : q.schema = .ok s := by
  have meets : ∀ a ∈ q.bases, ∀ b ∈ q.bases, a.Meets b := by
    rw [hbases]
    intro a ha b hb
    obtain ⟨t, ht, hsize⟩ := size_of_mem_bases hp h a ha
    obtain ⟨u, hu, hsize'⟩ := size_of_mem_bases hp h b hb
    exact (Relation.meets_iff ht hu).mpr ⟨hsize.trans hsize'.symm, hconflicts a ha b hb⟩
  obtain ⟨t, ht⟩ := schema_of_meets hq meets
  obtain ⟨first, rest, hfirst, hschema⟩ := exists_first hp h
  obtain ⟨first', rest', hfirst', hschema'⟩ := exists_first hq ht
  rw [hbases, hfirst] at hfirst'
  cases hfirst'
  cases hschema.symm.trans hschema'
  exact ht

/-- If a tree of set operations has a schema, all base relations have as many columns as it, and at
every position at which no left input below the root has an unknown type, base relations do not
conflict. Base relations that meet each other are accepted in every tree. If base relations do not
conflict at all, or if they do so openly, every other tree over them has the same schema, or none
has one. -/
theorem setTree_types {p : Plan} (hp : p.isSetTree = true) :
    (∀ s, p.schema = .ok s →
      (∀ base ∈ p.bases, ∃ t, base.schema = some t ∧ t.size = s.size) ∧
      ∀ i, (∀ base ∈ p.innerLeftBases, base.IsKnownAt i) →
        ∀ a ∈ p.bases, ∀ b ∈ p.bases, ¬ a.ConflictAt b i) ∧
    ((∀ a ∈ p.bases, ∀ b ∈ p.bases, a.Meets b) → ∃ s, p.schema = .ok s) ∧
    ∀ q : Plan, q.isSetTree = true → q.bases = p.bases →
      (∀ a ∈ p.bases, ∀ b ∈ p.bases, ∀ i, ¬ a.ConflictAt b i) ∨ ConflictOpenly p.bases →
        ∀ s, p.schema = .ok s ↔ q.schema = .ok s := by
  refine ⟨fun s hs => ⟨size_of_mem_bases hp hs, fun i => not_conflictAt_of_schema hp hs⟩,
    schema_of_meets hp, ?bracketing⟩
  rintro q hq hbases (hnone | hopen) s
  · constructor
    · exact schema_of_schema hp hq hbases hnone
    · exact schema_of_schema hq hp hbases.symm (hbases ▸ hnone)
  · constructor
    · intro h
      exact absurd h (schema_ne_ok_of_conflictOpenly hp hopen s)
    · intro h
      exact absurd h (schema_ne_ok_of_conflictOpenly hq (hbases ▸ hopen) s)

namespace Sample

/-- A relation with one column `a` of the given type. -/
def typed (name type : String) : Plan :=
  .relation {} {
    name := .string name
    schema := some ⟨[⟨.string "a", .string name, .string type⟩]⟩ }

/-- Numbers of one relation that do not occur in another one are added to unknown values. -/
def known : Plan :=
  .binary {} .union (typed "U" "null")
    (.binary {} .difference (typed "R" "number") (typed "S" "number"))

/-- The same base relations in the other bracketing, under other operators. -/
def regrouped : Plan :=
  .binary {} .difference (.binary {} .intersect (typed "U" "null") (typed "R" "number"))
    (typed "S" "number")

/-- The unknown type stands on the left of the root, and numbers meet numbers. -/
theorem setTree_types_known :
    known.isSetTree = true ∧ (∃ s, known.schema = .ok s ∧ regrouped.schema = .ok s) ∧
      ∀ a ∈ known.bases, ∀ b ∈ known.bases, ¬ a.ConflictAt b 0 := by
  have tree : known.isSetTree = true := rfl
  obtain ⟨types, accepted, brackets⟩ := setTree_types tree
  have meets : ∀ a ∈ known.bases, ∀ b ∈ known.bases, a.Meets b := by decide
  have conflictFree : ∀ a ∈ known.bases, ∀ b ∈ known.bases, ∀ i, ¬ a.ConflictAt b i := by
    intro a ha b hb
    obtain ⟨s, hs, t, ht, -⟩ := meets a ha b hb
    exact ((Relation.meets_iff hs ht).mp (meets a ha b hb)).2
  obtain ⟨s, hs⟩ := accepted meets
  refine ⟨tree, ⟨s, hs, ?_⟩, (types s hs).2 0 (by decide)⟩
  exact (brackets regrouped rfl rfl (.inl conflictFree) s).mp hs

/-- Numbers and texts meet behind an unknown type on their left; in the other bracketing they do not
meet. -/
theorem setTree_types_hidden :
    ∃ p q : Plan, p.isSetTree = true ∧ q.isSetTree = true ∧ p.bases = q.bases ∧
      (∃ s, p.schema = .ok s) ∧ (¬∃ s, q.schema = .ok s) ∧
      ∃ a ∈ p.bases, ∃ b ∈ p.bases, a.ConflictAt b 0 := by
  refine ⟨.binary {} .union (.binary {} .union (typed "U" "null") (typed "R" "number"))
      (typed "S" "string"),
    .binary {} .union (typed "U" "null")
      (.binary {} .union (typed "R" "number") (typed "S" "string")),
    rfl, rfl, rfl, ⟨_, rfl⟩, ?_, by decide⟩
  rintro ⟨s, hs⟩
  cases hs

end Sample

end Plan

end LogicalPlan
