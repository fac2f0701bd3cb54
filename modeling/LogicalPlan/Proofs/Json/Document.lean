import LogicalPlan.Json.Writer
import LogicalPlan.Proofs.Value.Double

/-!
# Documents

What is written for a value depends on its document only: the arrays, objects, texts and numbers
that it is made of. Plain values are documents themselves, and exports of plans with plain fields
are made of plain values.
-/

namespace LogicalPlan

namespace Value

/-! ### Documents -/

mutual

/-- The value as a JSON document: records become objects, tuples and sets become lists, dates and
times become texts. -/
def document : Value → Value
  | .date d => .string d.toIso
  | .time t => .string t.toIso
  | .instant d t => .string (d.toIso ++ "T" ++ t.toIso)
  | .list items | .tuple items | .set items => .list (documentItems items)
  | .object members | .record _ _ _ _ members => .object (documentMembers members)
  | v => v

/-- The items as JSON documents. -/
def documentItems : List Value → List Value
  | [] => []
  | v :: vs => document v :: documentItems vs

/-- The members with their values as JSON documents. -/
def documentMembers : List (Value × Value) → List (Value × Value)
  | [] => []
  | (k, v) :: ms => (k, document v) :: documentMembers ms

end

mutual

/-- The value is built from null, truth values, finite numbers and texts by lists and by objects
whose keys are texts. -/
def isPlain : Value → Bool
  | .null | .bool _ | .int _ | .string _ => true
  | .float x => x.isFinite
  | .list items => arePlain items
  | .object members => arePlainMembers members
  | _ => false

/-- All items are plain. -/
def arePlain : List Value → Bool
  | [] => true
  | v :: vs => isPlain v && arePlain vs

/-- All keys are texts, and all values are plain. -/
def arePlainMembers : List (Value × Value) → Bool
  | [] => true
  | (k, v) :: ms => (Json.textKey? k).isSome && isPlain v && arePlainMembers ms

end

theorem arePlain_eq_all (items : List Value) : arePlain items = items.all isPlain := by
  induction items with
  | nil => rfl
  | cons v vs ih => rw [arePlain, ih, List.all_cons]

theorem arePlainMembers_eq_all (members : Members) :
    arePlainMembers members =
      members.all fun m => (Json.textKey? m.1).isSome && isPlain m.2 := by
  induction members with
  | nil => rfl
  | cons m ms ih => rw [arePlainMembers, ih, List.all_cons]

theorem documentItems_eq_map (items : List Value) : documentItems items = items.map document := by
  induction items with
  | nil => rfl
  | cons v vs ih => rw [documentItems, ih, List.map_cons]

theorem documentMembers_eq_map (members : Members) :
    documentMembers members = members.map fun m => (m.1, document m.2) := by
  induction members with
  | nil => rfl
  | cons m ms ih => rw [documentMembers, ih, List.map_cons]

mutual

/-- A plain value is its own document. -/
theorem document_of_isPlain : ∀ {v : Value}, v.isPlain = true → v.document = v
  | .null, _ | .bool _, _ | .int _, _ | .float _, _ | .string _, _ => rfl
  | .list items, h => by rw [document, documentItems_of_arePlain (by simpa [isPlain] using h)]
  | .object members, h => by
      rw [document, documentMembers_of_arePlainMembers (by simpa [isPlain] using h)]

theorem documentItems_of_arePlain :
    ∀ {items : List Value}, arePlain items = true → documentItems items = items
  | [], _ => rfl
  | v :: vs, h => by
      rw [arePlain, Bool.and_eq_true] at h
      rw [documentItems, document_of_isPlain h.1, documentItems_of_arePlain h.2]

theorem documentMembers_of_arePlainMembers :
    ∀ {members : Members}, arePlainMembers members = true → documentMembers members = members
  | [], _ => rfl
  | (k, v) :: ms, h => by
      rw [arePlainMembers, Bool.and_eq_true, Bool.and_eq_true] at h
      rw [documentMembers, document_of_isPlain h.1.2, documentMembers_of_arePlainMembers h.2]

end

end Value

namespace Json

mutual

/-- A value is written like its document. -/
theorem write?_document (format : Format) :
    ∀ (depth : ℕ) (v : Value), write? format depth v.document = write? format depth v
  | _, .null | _, .bool _ | _, .int _ | _, .float _ | _, .string _ | _, .bytes _ => rfl
  | _, .date _ | _, .time _ | _, .instant _ _ => rfl
  | depth, .list items | depth, .tuple items | depth, .set items => by
      simp only [Value.document, write?, writeItems?_document format (depth + 1) items]
  | depth, .object members | depth, .record _ _ _ _ members => by
      simp only [Value.document, write?, writeMembers?_document format (depth + 1) members]

theorem writeItems?_document (format : Format) :
    ∀ (depth : ℕ) (items : List Value),
      writeItems? format depth (Value.documentItems items) = writeItems? format depth items
  | _, [] => rfl
  | depth, v :: vs => by
      simp only [Value.documentItems, writeItems?, write?_document format depth v,
        writeItems?_document format depth vs]

theorem writeMembers?_document (format : Format) :
    ∀ (depth : ℕ) (members : Members),
      writeMembers? format depth (Value.documentMembers members) =
        writeMembers? format depth members
  | _, [] => rfl
  | depth, (k, v) :: ms => by
      simp only [Value.documentMembers, writeMembers?, write?_document format depth v,
        writeMembers?_document format depth ms]

end

end Json

end LogicalPlan
