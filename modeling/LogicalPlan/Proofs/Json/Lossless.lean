import LogicalPlan.Proofs.Json.Document

/-!
# Exports without loss

Things are exported without loss if their exports have plain documents and no two things share a
document. Lists, missing things and objects of fields are exported without loss if their parts are.
-/

namespace LogicalPlan

/-- What meets the condition has a plain document, and no two such things have the same one. -/
structure IsLossless {α : Type} (fit : α → Bool) (toValue : α → Value) : Prop where
  plain : ∀ a, fit a = true → (toValue a).document.isPlain = true
  injective : ∀ a b, fit a = true → fit b = true →
    (toValue a).document = (toValue b).document → a = b

/-- The documents of the fields. -/
def Fields.documents (fields : Fields) : Fields :=
  fields.map fun f => (f.1, f.2.document)

namespace Value

theorem document_list (items : List Value) :
    (Value.list items).document = .list (items.map document) := by
  rw [document, documentItems_eq_map]

theorem document_tuple (items : List Value) :
    (Value.tuple items).document = .list (items.map document) := by
  rw [document, documentItems_eq_map]

theorem document_ofFields (fields : Fields) :
    (Value.ofFields fields).document = .ofFields fields.documents := by
  rw [ofFields, document, documentMembers_eq_map, ofFields, Members.ofFields, Members.ofFields,
    Fields.documents, List.map_map, List.map_map]
  rfl

theorem document_record (kind : String) (text : ObjectText) (literal : String) (key : List Value)
    (fields : Fields) :
    (Value.record kind text literal key (Members.ofFields fields)).document =
      .ofFields fields.documents :=
  document_ofFields fields

theorem isPlain_list (items : List Value) : (Value.list items).isPlain = items.all isPlain := by
  rw [isPlain, arePlain_eq_all]

theorem isPlain_ofFields (fields : Fields) :
    (Value.ofFields fields).isPlain = fields.all (·.2.isPlain) := by
  rw [ofFields, isPlain, arePlainMembers_eq_all, Members.ofFields, List.all_map]
  rfl

theorem ofFields_inj {fields other : Fields} (h : Value.ofFields fields = .ofFields other) :
    fields = other := by
  have names : Function.Injective fun f : String × Value => (Value.string f.1, f.2) := by
    rintro ⟨_, _⟩ ⟨_, _⟩ heq
    cases heq
    rfl
  exact List.map_injective_iff.mpr names (object.inj h)

/-- Objects with the same document have fields with the same documents. -/
theorem documents_eq {v w : Value} {fields other : Fields}
    (hv : v.document = .ofFields fields.documents) (hw : w.document = .ofFields other.documents)
    (h : v.document = w.document) : fields.documents = other.documents :=
  ofFields_inj (hv.symm.trans (h.trans hw))

end Value

namespace IsLossless

variable {α : Type} {fit : α → Bool} {toValue : α → Value}

theorem map_injective (h : IsLossless fit toValue) {as bs : List α} (has : as.all fit = true)
    (hbs : bs.all fit = true)
    (heq : as.map (fun a => (toValue a).document) = bs.map fun b => (toValue b).document) :
    as = bs := by
  induction as generalizing bs with
  | nil => exact (List.map_eq_nil_iff.mp heq.symm).symm
  | cons a as ih =>
      cases bs with
      | nil => cases heq
      | cons b bs =>
          rw [List.all_cons, Bool.and_eq_true] at has hbs
          rw [List.map_cons, List.map_cons, List.cons.injEq] at heq
          rw [h.injective a b has.1 hbs.1 heq.1, ih has.2 hbs.2 heq.2]

/-- Lists are exported without loss. -/
theorem list (h : IsLossless fit toValue) :
    IsLossless (fun as : List α => as.all fit) fun as => .list (as.map toValue) where
  plain as has := by
    rw [Value.document_list, Value.isPlain_list, List.map_map, List.all_map, List.all_eq_true]
    rw [List.all_eq_true] at has
    exact fun a ha => h.plain a (has a ha)
  injective as bs has hbs heq := by
    rw [Value.document_list, Value.document_list, List.map_map, List.map_map] at heq
    exact h.map_injective has hbs (Value.list.inj heq)

/-- What may be missing is exported without loss if null stands for nothing else. -/
theorem option (h : IsLossless fit toValue) (hnull : ∀ a, (toValue a).document ≠ .null) :
    IsLossless (fun a : Option α => a.all fit) fun a => (a.map toValue).getD .null where
  plain a ha := by
    cases a with
    | none => rfl
    | some a => exact h.plain a ha
  injective a b ha hb heq := by
    cases a with
    | none =>
        cases b with
        | none => rfl
        | some b => exact absurd heq.symm (hnull b)
    | some a =>
        cases b with
        | none => exact absurd heq (hnull a)
        | some b => exact congrArg some (h.injective a b ha hb heq)

/-- Plain values are exported as they are. -/
theorem value : IsLossless Value.isPlain id where
  plain v hv := by rwa [id, Value.document_of_isPlain hv]
  injective v w hv hw heq := by
    rwa [id, id, Value.document_of_isPlain hv, Value.document_of_isPlain hw] at heq

theorem text : IsLossless (fun _ => true) Value.string where
  plain _ _ := rfl
  injective _ _ _ _ heq := Value.string.inj heq

theorem bool : IsLossless (fun _ => true) Value.bool where
  plain _ _ := rfl
  injective _ _ _ _ heq := Value.bool.inj heq

theorem object : IsLossless (fun members => (Value.object members).isPlain) Value.object where
  plain members h := value.plain (.object members) h
  injective _ _ h h' heq := Value.object.inj (value.injective _ _ h h' heq)

theorem tuple : IsLossless (·.all Value.isPlain) Value.tuple where
  plain items h := by
    have := value.list.plain items h
    rwa [List.map_id, Value.document_list, ← Value.document_tuple] at this
  injective items other h h' heq := by
    rw [Value.document_tuple, ← Value.document_list, Value.document_tuple,
      ← Value.document_list] at heq
    exact value.list.injective items other h h' (by rwa [List.map_id, List.map_id])

end IsLossless

/-- Fields that have plain documents if the condition is met, and tell apart what meets it. -/
structure AreLossless {α : Type} (fit : α → Bool) (fields : α → Fields) : Prop where
  plain : ∀ a, fit a = true → (fields a).documents.all (·.2.isPlain) = true
  injective : ∀ a b, fit a = true → fit b = true →
    (fields a).documents = (fields b).documents → a = b

namespace AreLossless

variable {α β : Type} {fit : α → Bool} {fit' : β → Bool} {fields : α → Fields}
  {fields' : β → Fields}

/-- Nothing needs no field. -/
theorem nil : AreLossless (fun _ : Unit => true) fun _ => [] where
  plain _ _ := rfl
  injective _ _ _ _ _ := rfl

/-- One more field for one more part. -/
theorem cons {toValue : α → Value} (name : String) (h : IsLossless fit toValue)
    (hs : AreLossless fit' fields') :
    AreLossless (fun p : α × β => fit p.1 && fit' p.2)
      fun p => (name, toValue p.1) :: fields' p.2 where
  plain p hp := by
    rw [Bool.and_eq_true] at hp
    rw [Fields.documents, List.map_cons, List.all_cons, h.plain p.1 hp.1, Bool.true_and]
    exact hs.plain p.2 hp.2
  injective p q hp hq heq := by
    rw [Bool.and_eq_true] at hp hq
    rw [Fields.documents, Fields.documents, List.map_cons, List.map_cons, List.cons.injEq,
      Prod.mk.injEq] at heq
    exact Prod.ext (h.injective p.1 q.1 hp.1 hq.1 heq.1.2) (hs.injective p.2 q.2 hp.2 hq.2 heq.2)

/-- One field for all. -/
theorem single {toValue : α → Value} (name : String) (h : IsLossless fit toValue) :
    AreLossless fit fun a => [(name, toValue a)] where
  plain a ha := by
    rw [Fields.documents, List.map_singleton, List.all_cons, h.plain a ha]
    rfl
  injective a b ha hb heq := by
    rw [Fields.documents, Fields.documents, List.map_singleton, List.map_singleton,
      List.cons.injEq, Prod.mk.injEq] at heq
    exact h.injective a b ha hb heq.1.2

/-- What is determined by its parts is told apart by the fields of its parts. -/
theorem of_parts (h : AreLossless fit fields) (parts : β → α)
    (hfields : ∀ b, fields' b = fields (parts b)) (hfit : ∀ b, fit' b = true → fit (parts b) = true)
    (hparts : ∀ b c, parts b = parts c → b = c) : AreLossless fit' fields' where
  plain b hb := by
    rw [hfields]
    exact h.plain _ (hfit b hb)
  injective b c hb hc heq := by
    rw [hfields, hfields] at heq
    exact hparts b c (h.injective _ _ (hfit b hb) (hfit c hc) heq)

/-- What is exported as the object of fields of its parts is exported without loss. -/
theorem isLossless (h : AreLossless fit fields) {toValue : β → Value} (parts : β → α)
    (hdocument : ∀ b, (toValue b).document = .ofFields (fields (parts b)).documents)
    (hfit : ∀ b, fit' b = true → fit (parts b) = true)
    (hparts : ∀ b c, parts b = parts c → b = c) : IsLossless fit' toValue where
  plain b hb := by
    rw [hdocument, Value.isPlain_ofFields]
    exact h.plain _ (hfit b hb)
  injective b c hb hc heq := by
    have hfields := Value.documents_eq (hdocument b) (hdocument c) heq
    exact hparts b c (h.injective _ _ (hfit b hb) (hfit c hc) hfields)

end AreLossless

end LogicalPlan
