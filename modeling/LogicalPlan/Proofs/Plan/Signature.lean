import LogicalPlan.Proofs.Plan.Equality

/-!
# Equal plans agree as keys

What tells plans, expressions and their parts apart as keys is proper where they are, and its normal
form is determined by theirs. Equal plans therefore agree as keys. Notes do not show in it at all.
-/

namespace LogicalPlan

/-! ### Parts of keys -/

theorem Value.normal_tuple_map {α : Type} {normal : α → α} {signature : α → Value}
    (h : ∀ a, (signature a).normal = signature (normal a)) (as : List α) :
    (Value.tuple (as.map signature)).normal = .tuple ((as.map normal).map signature) := by
  rw [Value.normal, normalItems_eq_map, List.map_map, List.map_map]
  exact congrArg tuple (List.map_congr_left fun a _ => h a)

theorem Value.isProper_tuple_map {α : Type} {proper : α → Prop} {signature : α → Value}
    (h : ∀ a, proper a → (signature a).IsProper) {as : List α} (has : ∀ a ∈ as, proper a) :
    (Value.tuple (as.map signature)).IsProper := by
  refine areProper_iff.mpr ?_
  rw [List.forall_mem_map]
  exact fun a ha => h a (has a ha)

namespace Column

theorem normal_signature (c : Column) : c.signature.normal = c.normal.signature :=
  rfl

theorem isProper_signature (c : Column) (h : c.IsProper) : c.signature.IsProper :=
  ⟨h.1, h.2, trivial⟩

end Column

namespace Expr

theorem length_normalArguments (args : List Argument) :
    (normalArguments args).length = args.length := by
  induction args with
  | nil => rfl
  | cons a args ih => rw [normalArguments, List.length_cons, List.length_cons, ih]

theorem normal_signature (e : Expr) : e.signature.normal = e.normal.signature := by
  cases e with
  | column origin c => rfl
  | apply origin datatype func args =>
      rw [normal, signature, signature, keyParts, keyParts, length_normalArguments]
      rfl

theorem isProper_signature (e : Expr) (h : e.IsProper) : e.signature.IsProper := by
  cases e with
  | column origin c => exact c.isProper_signature h.2
  | apply origin datatype func args => exact ⟨h.2.1, h.2.2.1, trivial, trivial⟩

end Expr

namespace JoinCondition

theorem normal_signature (condition : JoinCondition) :
    condition.signature.normal = condition.normal.signature := by
  cases condition with
  | natural columns =>
      cases columns with
      | none => rfl
      | some names =>
          have items : (Value.tuple names).normal = .tuple (names.map Value.normal) := by
            rw [Value.normal, Value.normalItems_eq_map]
          exact congrArg (fun v => Value.tuple [v]) items
  | theta condition => exact congrArg (fun v => Value.tuple [v]) condition.normal_signature
  | unknown v => rfl

theorem isProper_signature (condition : JoinCondition) (h : condition.IsProper) :
    condition.signature.IsProper := by
  cases condition with
  | natural columns =>
      cases columns with
      | none => exact ⟨trivial, trivial⟩
      | some names => exact ⟨Value.areProper_iff.mpr (h names rfl), trivial⟩
  | theta condition => exact ⟨condition.isProper_signature h, trivial⟩
  | unknown v => exact h

end JoinCondition

namespace ProjectionItem

theorem normal_signature (item : ProjectionItem) :
    item.signature.normal = item.normal.signature := by
  cases item with
  | column c => rfl
  | computed name relAlias child =>
      exact congrArg (fun v => Value.tuple [name.normal, relAlias.normal, v])
        child.normal_signature

theorem isProper_signature (item : ProjectionItem) (h : item.IsProper) :
    item.signature.IsProper := by
  cases item with
  | column c => exact c.isProper_signature h
  | computed name relAlias child =>
      exact ⟨h.1, h.2.1, child.isProper_signature h.2.2, trivial⟩

end ProjectionItem

namespace Aggregate

theorem normal_signature (agg : Aggregate) : agg.signature.normal = agg.normal.signature := by
  obtain ⟨function, column, name⟩ := agg
  cases column <;> rfl

theorem isProper_signature (agg : Aggregate) (h : agg.IsProper) : agg.signature.IsProper := by
  obtain ⟨function, column, name⟩ := agg
  cases column with
  | none => exact ⟨h.1, trivial, h.2.2, trivial⟩
  | some c => exact ⟨h.1, c.isProper_signature (h.2.1 c rfl), h.2.2, trivial⟩

end Aggregate

namespace Renaming

theorem normal_signature (r : Renaming) : r.signature.normal = r.normal.signature :=
  rfl

theorem isProper_signature (r : Renaming) (h : r.IsProper) : r.signature.IsProper :=
  ⟨h.1, r.column.isProper_signature h.2, trivial⟩

end Renaming

namespace SortKey

theorem normal_column_signature (key : SortKey) :
    key.column.signature.normal = key.normal.column.signature :=
  key.column.normal_signature

theorem normal_ascending (key : SortKey) : key.ascending.normal = key.normal.ascending :=
  rfl

end SortKey

/-! ### Keys of operators -/

namespace UnaryOp

theorem normal_signature (op : UnaryOp) :
    op.signature.map Value.normal = op.normal.signature := by
  cases op with
  | selection condition => exact congrArg (fun v => [v]) condition.normal_signature
  | projection columns =>
      exact congrArg (fun v => [v])
        (Value.normal_tuple_map ProjectionItem.normal_signature columns)
  | orderBy keys =>
      exact congrArg₂ (fun v w => [v, w])
        (Value.normal_tuple_map SortKey.normal_column_signature keys)
        (Value.normal_tuple_map SortKey.normal_ascending keys)
  | groupBy groups aggregates =>
      exact congrArg₂ (fun v w => [v, w]) (Value.normal_tuple_map Column.normal_signature groups)
        (Value.normal_tuple_map Aggregate.normal_signature aggregates)
  | renameColumns renamings =>
      exact congrArg (fun v => [v]) (Value.normal_tuple_map Renaming.normal_signature renamings)
  | renameRelation relAlias => rfl

theorem isProper_signature (op : UnaryOp) (h : op.IsProper) : Value.AreProper op.signature := by
  cases op with
  | selection condition => exact ⟨condition.isProper_signature h, trivial⟩
  | projection columns =>
      exact ⟨Value.isProper_tuple_map ProjectionItem.isProper_signature h, trivial⟩
  | orderBy keys =>
      exact ⟨Value.isProper_tuple_map (fun key hkey => key.column.isProper_signature hkey.1) h,
        Value.isProper_tuple_map (fun key hkey => hkey.2) h, trivial⟩
  | groupBy groups aggregates =>
      exact ⟨Value.isProper_tuple_map Column.isProper_signature h.1,
        Value.isProper_tuple_map Aggregate.isProper_signature h.2, trivial⟩
  | renameColumns renamings =>
      exact ⟨Value.isProper_tuple_map Renaming.isProper_signature h, trivial⟩
  | renameRelation relAlias => exact ⟨h, trivial⟩

theorem name_normal (op : UnaryOp) : op.normal.name = op.name := by
  cases op <;> rfl

end UnaryOp

namespace BinaryOp

theorem normal_signature {op op' : BinaryOp} (h : op.normal = op'.normal) :
    op.signature.map Value.normal = op'.signature.map Value.normal := by
  cases op with
  | join kind condition =>
      cases op' with
      | join kind' condition' =>
          rw [normal, normal, join.injEq] at h
          rw [signature, signature, List.map_singleton, List.map_singleton,
            JoinCondition.normal_signature, JoinCondition.normal_signature, h.2]
      | _ => cases h
  | _ =>
      cases op' with
      | join => cases h
      | _ => cases h <;> rfl

theorem isProper_signature (op : BinaryOp) (h : op.IsProper) : Value.AreProper op.signature := by
  cases op with
  | join kind condition => exact ⟨condition.isProper_signature h, trivial⟩
  | semi keepsLeft => exact ⟨trivial, trivial⟩
  | _ => exact trivial

theorem name_normal (op : BinaryOp) : op.normal.name = op.name := by
  cases op with
  | join kind condition => cases kind <;> rfl
  | _ => rfl

end BinaryOp

/-! ### Keys of plans -/

namespace Plan

/-- What tells plans apart as keys is determined by their normal forms. -/
theorem normal_signature {p q : Plan} (h : p.normal = q.normal) :
    p.signature.normal = q.signature.normal := by
  induction p generalizing q with
  | relation notes base =>
      cases q with
      | relation notes' base' =>
          rw [normal, normal, relation.injEq, Relation.normal, Relation.normal,
            Relation.mk.injEq] at h
          exact congrArg (fun v => Value.tuple [.string "Relation", v]) h.2.1
      | _ => cases h
  | unary notes op input ih =>
      cases q with
      | unary notes' op' input' =>
          rw [normal, normal, unary.injEq] at h
          obtain ⟨-, hop, hinput⟩ := h
          have hname : op.name = op'.name := by rw [← op.name_normal, hop, op'.name_normal]
          simp only [signature, Value.normal, Value.normalItems, Value.normalItems_eq_map,
            op.normal_signature, op'.normal_signature, hop, hname, ih hinput]
      | _ => cases h
  | binary notes op left right ihl ihr =>
      cases q with
      | binary notes' op' left' right' =>
          rw [normal, normal, binary.injEq] at h
          obtain ⟨-, hop, hleft, hright⟩ := h
          have hname : op.name = op'.name := by rw [← op.name_normal, hop, op'.name_normal]
          simp only [signature, Value.normal, Value.normalItems, Value.normalItems_eq_map,
            BinaryOp.normal_signature hop, hname, ihl hleft, ihr hright]
      | _ => cases h

theorem isProper_signature (p : Plan) (h : p.IsProper) : p.signature.IsProper := by
  induction p with
  | relation notes base => exact ⟨trivial, h.2.1, trivial⟩
  | unary notes op input ih =>
      exact ⟨trivial, ⟨ih h.2.2, op.isProper_signature h.2.1⟩, trivial⟩
  | binary notes op left right ihl ihr =>
      exact ⟨trivial, ⟨ihl h.2.2.1, ihr h.2.2.2, op.isProper_signature h.2.1⟩, trivial⟩

/-- Notes do not show in what tells plans apart as keys. -/
theorem signature_of_unnoted {p q : Plan} (h : p.unnoted = q.unnoted) :
    p.signature = q.signature := by
  have bare (p : Plan) : p.unnoted.signature = p.signature := by
    induction p with
    | relation notes base => rfl
    | unary notes op input ih => rw [unnoted, signature, signature, ih]
    | binary notes op left right ihl ihr => rw [unnoted, signature, signature, ihl, ihr]
  rw [← bare p, h, bare q]

end Plan

/-! ### Equality and keys -/

/-- The computed sameness is equality part by part where things are proper. It is an equivalence,
and equal things that are fit to be keys agree as keys. -/
structure IsLawful {α : Type} (same : α → α → Bool) (proper : α → Prop) (equals : α → α → Prop)
    (signature : α → Value) : Prop where
  decides : ∀ a b, proper a → proper b → (same a b = true ↔ equals a b)
  refl : ∀ a, proper a → equals a a
  symm : ∀ a b, proper a → proper b → equals a b → equals b a
  trans : ∀ a b c, proper a → proper b → proper c → equals a b → equals b c → equals a c
  agree : ∀ a b, proper a → proper b → (signature a).IsKey → (signature b).IsKey → equals a b →
    Value.keysAgree (signature a) (signature b) = .ok true

theorem Decides.isLawful {α : Type} [DecidableEq α] {normal : α → α} {proper : α → Prop}
    {equals : α → α → Prop} {signature : α → Value} (h : Decides normal proper equals)
    (hproper : ∀ a, proper a → (signature a).IsProper)
    (hnormal : ∀ {a b}, normal a = normal b → (signature a).normal = (signature b).normal) :
    IsLawful (fun a b => decide (normal a = normal b)) proper equals signature where
  decides a b ha hb := by rw [decide_eq_true_eq, h a b ha hb]
  refl a ha := (h a a ha ha).mp rfl
  symm a b ha hb hab := (h b a hb ha).mp ((h a b ha hb).mpr hab).symm
  trans a b c ha hb hc hab hbc :=
    (h a c ha hc).mp (((h a b ha hb).mpr hab).trans ((h b c hb hc).mpr hbc))
  agree a b ha hb hkey hkey' hab :=
    Value.keysAgree_of_normal (hproper a ha) (hproper b hb) hkey hkey'
      (hnormal ((h a b ha hb).mpr hab))

theorem normal_eq_of_signature {α : Type} {normal : α → α} {signature : α → Value}
    (h : ∀ a, (signature a).normal = signature (normal a)) {a b : α} (hab : normal a = normal b) :
    (signature a).normal = (signature b).normal := by
  rw [h, h, hab]

/-- Equality of plans, expressions, columns, join conditions, projection entries, aggregates and
renamings is an equivalence. Equal ones agree as keys if what they are told apart by is hashable and
contains no times of day at a distance from universal time that is no number of whole seconds. As a
key, a plan does not depend on any positions, metadata, warnings or parentheses that are noted in
it. -/
theorem Plan.equality_isLawful :
    IsLawful Plan.same Plan.IsProper Plan.Equals Plan.signature ∧
      IsLawful Expr.same Expr.IsProper Expr.Equals Expr.signature ∧
      IsLawful Column.same Column.IsProper Column.Equals Column.signature ∧
      IsLawful (fun a b => decide (a.normal = b.normal)) JoinCondition.IsProper JoinCondition.Equals
        JoinCondition.signature ∧
      IsLawful (fun a b => decide (a.normal = b.normal)) ProjectionItem.IsProper
        ProjectionItem.Equals ProjectionItem.signature ∧
      IsLawful (fun a b => decide (a.normal = b.normal)) Aggregate.IsProper Aggregate.Equals
        Aggregate.signature ∧
      IsLawful (fun a b => decide (a.normal = b.normal)) Renaming.IsProper Renaming.Equals
        Renaming.signature ∧
      ∀ p q : Plan, p.unnoted = q.unnoted → p.signature = q.signature := by
  refine ⟨?plans, ?expressions, ?columns, ?conditions, ?entries, ?aggregates, ?renamings, ?notes⟩
  case plans => exact Plan.decides.isLawful Plan.isProper_signature Plan.normal_signature
  case expressions =>
    exact Expr.decides.isLawful Expr.isProper_signature
      (normal_eq_of_signature Expr.normal_signature)
  case columns =>
    exact Column.decides.isLawful Column.isProper_signature
      (normal_eq_of_signature Column.normal_signature)
  case conditions =>
    exact JoinCondition.decides.isLawful JoinCondition.isProper_signature
      (normal_eq_of_signature JoinCondition.normal_signature)
  case entries =>
    exact ProjectionItem.decides.isLawful ProjectionItem.isProper_signature
      (normal_eq_of_signature ProjectionItem.normal_signature)
  case aggregates =>
    exact Aggregate.decides.isLawful Aggregate.isProper_signature
      (normal_eq_of_signature Aggregate.normal_signature)
  case renamings =>
    exact Renaming.decides.isLawful Renaming.isProper_signature
      (normal_eq_of_signature Renaming.normal_signature)
  case notes => exact fun _ _ => Plan.signature_of_unnoted

namespace Plan

namespace Sample

/-- The column that is called `1`, counted in the metadata. -/
def counted (one : Value) : Plan :=
  .unary { metadata := [(.string "n", one)] } (.projection [.column ⟨one, .null⟩])
    (.relation {} { name := .string "R" })

/-- The floating-point number one. -/
def one : Value :=
  .float ⟨0x3ff0000000000000⟩

theorem isProper_counted {v : Value} (h : v.IsProper) : (counted v).IsProper := by
  simp [counted, Plan.IsProper, Notes.IsProper, UnaryOp.IsProper, ProjectionItem.IsProper,
    Column.IsProper, Relation.IsProper, Value.IsProper, Value.AreProperMembers, h]

theorem isKey_counted {v : Value} (h : v.IsKey) : (counted v).signature.IsKey := by
  simp [counted, signature, UnaryOp.signature, ProjectionItem.signature, Column.signature,
    Column.keyParts, Value.IsKey, Value.AreKeys, h]

theorem isProper_one : one.IsProper :=
  .inl (by decide)

/-- Truth is the number one, also in a key, and a warning makes a difference but not in the key. -/
theorem equality_isLawful_counted :
    (counted (.bool true)).Equals (counted one) ∧
      Value.keysAgree (counted (.bool true)).signature (counted one).signature = .ok true ∧
      ¬ (counted one).Equals ((counted one).warn Message.distinctMissing none) ∧
      (counted one).signature = ((counted one).warn Message.distinctMissing none).signature := by
  have proper : (counted (.bool true)).IsProper := isProper_counted trivial
  have proper' : (counted one).IsProper := isProper_counted isProper_one
  have plans := equality_isLawful.1
  have equal : (counted (.bool true)).Equals (counted one) :=
    (plans.decides _ _ proper proper').mp (by decide)
  have agree := plans.agree _ _ proper proper' (isKey_counted trivial) (isKey_counted trivial) equal
  refine ⟨equal, agree, ?warned, equality_isLawful.2.2.2.2.2.2.2 _ _ (unnoted_withNotes _ _).symm⟩
  rintro ⟨⟨-, -, warnings, -⟩, -⟩
  cases warnings

/-- Midnight, that many microseconds ahead of universal time. -/
def midnight (ahead : Int) : Value :=
  .time ⟨0, 0, 0, 0, some ahead⟩

/-- A join over a list, which is not hashable, in place of a join condition. -/
def listed : Plan :=
  .binary {} (.join .inner (.unknown (.list [.string "b"]))) (.relation {} { name := .string "R" })
    (.relation {} { name := .string "S" })

/-- Columns with equal hashable names need not agree as keys: at a distance of half a second,
midnight is equal to midnight. An equal plan is no key at all if its join condition is a list. -/
theorem equality_keys_apart :
    ((counted (midnight 500000)).Equals (counted (midnight 0)) ∧
      Value.keysAgree (counted (midnight 500000)).signature (counted (midnight 0)).signature =
        .ok false) ∧
      listed.Equals listed ∧ Value.keysAgree listed.signature listed.signature = wrongType := by
  have early : (counted (midnight 500000)).IsProper := isProper_counted trivial
  have late : (counted (midnight 0)).IsProper := isProper_counted trivial
  have plain : listed.IsProper := by
    simp [listed, Plan.IsProper, Notes.IsProper, BinaryOp.IsProper, JoinCondition.IsProper,
      Relation.IsProper, Value.IsProper, Value.AreProper, Value.AreProperMembers]
  refine ⟨⟨(Plan.decides _ _ early late).mp ?names, ?residues⟩,
    (Plan.decides listed listed plain plain).mp rfl, ?unhashable⟩
  case names => decide
  case residues => decide
  case unhashable => rfl

end Sample

end Plan

end LogicalPlan
