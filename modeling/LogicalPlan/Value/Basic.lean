import LogicalPlan.Value.Double
import LogicalPlan.Value.ObjectText
import LogicalPlan.Value.Calendar

/-!
# Dynamic values

Literals, rows, metadata, message parameters and the attributes of parser documents are values of
one dynamic type. Two values are the same when their normal forms agree: numbers and truth values
compare by magnitude, times by their representatives, sets without regard to order, objects as maps.

## Implementation notes

The keys of an object are values themselves; documents have texts as keys. Objects keep their
members in document order, because texts and exports show that order, and sets their items. Only the
normal form sorts them, by a code that tells all normal forms apart.
-/

namespace LogicalPlan

/-- A dynamic value. -/
inductive Value where
  | null
  | bool (b : Bool)
  | int (i : Int)
  | float (x : Double)
  | string (s : String)
  | bytes (octets : List UInt8)
  | date (d : Date)
  | time (t : TimeOfDay)
  | instant (d : Date) (t : TimeOfDay)
  | list (items : List Value)
  | tuple (items : List Value)
  | set (items : List Value)
  | object (members : List (Value × Value))
  /-- A structured object that is carried as a value: what it is, its text, its literal form, what
  stands for it in a key, and its exported members. -/
  | record (kind : String) (text : ObjectText) (literal : String) (key : List Value)
    (members : List (Value × Value))
  deriving Inhabited

/-- The members of an object in their order: keys with values. -/
abbrev Members := List (Value × Value)

/-- Named values in their order. -/
abbrev Fields := List (String × Value)

/-- Named values as the members of an object. -/
def Members.ofFields (fields : Fields) : Members :=
  fields.map fun f => (.string f.1, f.2)

/-- The object with the given fields. -/
def Value.ofFields (fields : Fields) : Value :=
  .object (Members.ofFields fields)

namespace Value

mutual

/-- Structural equality of two values. -/
def beq : Value → Value → Bool
  | .null, .null => true
  | .bool a, .bool b => a == b
  | .int a, .int b => a == b
  | .float a, .float b => a == b
  | .string a, .string b => a == b
  | .bytes a, .bytes b => a == b
  | .date a, .date b => a == b
  | .time a, .time b => a == b
  | .instant a t, .instant b u => a == b && t == u
  | .list a, .list b => beqItems a b
  | .tuple a, .tuple b => beqItems a b
  | .set a, .set b => beqItems a b
  | .object a, .object b => beqMembers a b
  | .record k t l ks a, .record k' t' l' ks' b =>
    k == k' && t == t' && l == l' && beqItems ks ks' && beqMembers a b
  | _, _ => false

/-- Structural equality of two item lists. -/
def beqItems : List Value → List Value → Bool
  | [], [] => true
  | a :: as, b :: bs => beq a b && beqItems as bs
  | _, _ => false

/-- Structural equality of two member lists. -/
def beqMembers : List (Value × Value) → List (Value × Value) → Bool
  | [], [] => true
  | (k, a) :: as, (l, b) :: bs => beq k l && beq a b && beqMembers as bs
  | _, _ => false

end

mutual

theorem beq_refl : ∀ v : Value, beq v v = true
  | .null | .bool _ | .int _ | .float _ | .string _ | .bytes _ | .date _ | .time _
  | .instant _ _ => by simp [beq]
  | .list items | .tuple items | .set items => by simpa [beq] using beqItems_refl items
  | .object members => by simpa [beq] using beqMembers_refl members
  | .record _ _ _ key members => by simp [beq, beqItems_refl key, beqMembers_refl members]

theorem beqItems_refl : ∀ items : List Value, beqItems items items = true
  | [] => rfl
  | v :: vs => by simp [beqItems, beq_refl v, beqItems_refl vs]

theorem beqMembers_refl : ∀ members : List (Value × Value), beqMembers members members = true
  | [] => rfl
  | (k, v) :: ms => by simp [beqMembers, beq_refl k, beq_refl v, beqMembers_refl ms]

end

mutual

theorem eq_of_beq : ∀ {v w : Value}, beq v w = true → v = w
  | .null, w, h => by cases w <;> simp_all [beq]
  | .bool _, w, h => by cases w <;> simp_all [beq]
  | .int _, w, h => by cases w <;> simp_all [beq]
  | .float _, w, h => by cases w <;> simp_all [beq]
  | .string _, w, h => by cases w <;> simp_all [beq]
  | .bytes _, w, h => by cases w <;> simp_all [beq]
  | .date _, w, h => by cases w <;> simp_all [beq]
  | .time _, w, h => by cases w <;> simp_all [beq]
  | .instant _ _, w, h => by cases w <;> simp_all [beq]
  | .list _, w, h => by
    cases w <;> simp only [beq, Bool.false_eq_true] at h
    rw [eq_of_beqItems h]
  | .tuple _, w, h => by
    cases w <;> simp only [beq, Bool.false_eq_true] at h
    rw [eq_of_beqItems h]
  | .set _, w, h => by
    cases w <;> simp only [beq, Bool.false_eq_true] at h
    rw [eq_of_beqItems h]
  | .object _, w, h => by
    cases w <;> simp only [beq, Bool.false_eq_true] at h
    rw [eq_of_beqMembers h]
  | .record _ _ _ _ _, w, h => by
    cases w <;> simp only [beq, Bool.false_eq_true, Bool.and_eq_true, beq_iff_eq] at h
    obtain ⟨⟨⟨⟨rfl, rfl⟩, rfl⟩, hk⟩, hm⟩ := h
    rw [eq_of_beqItems hk, eq_of_beqMembers hm]

theorem eq_of_beqItems : ∀ {as bs : List Value}, beqItems as bs = true → as = bs
  | [], [], _ => rfl
  | [], _ :: _, h => by simp [beqItems] at h
  | _ :: _, [], h => by simp [beqItems] at h
  | _ :: _, _ :: _, h => by
    simp only [beqItems, Bool.and_eq_true] at h
    rw [eq_of_beq h.1, eq_of_beqItems h.2]

theorem eq_of_beqMembers :
    ∀ {as bs : List (Value × Value)}, beqMembers as bs = true → as = bs
  | [], [], _ => rfl
  | [], _ :: _, h => by simp [beqMembers] at h
  | _ :: _, [], h => by simp [beqMembers] at h
  | (_, _) :: _, (_, _) :: _, h => by
    simp only [beqMembers, Bool.and_eq_true] at h
    obtain ⟨⟨hk, hv⟩, hs⟩ := h
    rw [eq_of_beq hk, eq_of_beq hv, eq_of_beqMembers hs]

end

instance : DecidableEq Value := fun v w =>
  decidable_of_iff (beq v w = true) ⟨eq_of_beq, fun h => h ▸ beq_refl v⟩

/-- The value counts as true: everything except null, false, zero and what is empty. -/
def isTruthy : Value → Bool
  | .null => false
  | .bool b => b
  | .int i => i != 0
  | .float x => !x.isZero
  | .string s => !s.isEmpty
  | .bytes octets => !octets.isEmpty
  | .list items | .tuple items | .set items => !items.isEmpty
  | .object members => !members.isEmpty
  | .date _ | .time _ | .instant _ _ | .record _ _ _ _ _ => true

/-- The value is the integer that it stands for; truth values stand for zero and one. -/
def toInt? : Value → Option Int
  | .bool b => some (if b then 1 else 0)
  | .int i => some i
  | _ => none

/-- A text as a list of numbers, with its length in front. -/
def textCode (s : String) : List Nat :=
  s.length :: s.toList.map Char.toNat

/-- A number and its sign as a list of numbers. -/
def signCode (i : Int) : List Nat :=
  [if i < 0 then 0 else 1, i.natAbs]

/-- A time of day as a list of numbers. -/
def timeCode (t : TimeOfDay) : List Nat :=
  [t.hour, t.minute, t.second, t.microsecond] ++ (t.offset.map signCode).getD []

mutual

/-- A list of numbers that tells values apart. Of records the texts do not count. -/
def code : Value → List Nat
  | .null => [0]
  | .bool b => [1, b.toNat]
  | .int i => 2 :: signCode i
  | .float x => [3, x.bits.toNat]
  | .string s => 4 :: textCode s
  | .bytes octets => 5 :: octets.length :: octets.map UInt8.toNat
  | .date d => 6 :: d.fields
  | .time t => 7 :: t.offset.isSome.toNat :: timeCode t
  | .instant d t => 8 :: t.offset.isSome.toNat :: d.fields ++ timeCode t
  | .list items => 9 :: items.length :: itemsCode items
  | .tuple items => 10 :: items.length :: itemsCode items
  | .set items => 11 :: items.length :: itemsCode items
  | .object members => 12 :: members.length :: membersCode members
  | .record kind _ _ key members =>
    13 :: textCode kind ++ key.length :: itemsCode key ++ members.length :: membersCode members

/-- The codes of the items of a list. -/
def itemsCode : List Value → List Nat
  | [] => []
  | v :: vs => code v ++ itemsCode vs

/-- The codes of the members of an object. -/
def membersCode : List (Value × Value) → List Nat
  | [] => []
  | (k, v) :: ms => code k ++ code v ++ membersCode ms

end

/-- Insert an entry before the first one with a larger key in a given order. -/
def insertSorted {κ α : Type} (lt : κ → κ → Bool) (m : κ × α) : List (κ × α) → List (κ × α)
  | [] => [m]
  | n :: ms => if lt n.1 m.1 then n :: insertSorted lt m ms else m :: n :: ms

/-- The entries in the order of their keys. -/
def sortByKey {κ α : Type} (lt : κ → κ → Bool) (members : List (κ × α)) : List (κ × α) :=
  members.foldr (insertSorted lt) []

/-- One key comes before another one in normal forms. -/
def keyBefore (k l : Value) : Bool :=
  decide (code k < code l)

/-- The items in the order of their codes. -/
def sortItems (items : List Value) : List Value :=
  (sortByKey keyBefore (items.map (·, ()))).map Prod.fst

mutual

/-- The representative of all values that count as the same value. -/
def normal : Value → Value
  | .bool b => .int (if b then 1 else 0)
  | .float x => (x.toInt?.map Value.int).getD (.float x)
  | .time t => .time t.comparable
  | .instant d t => .instant (t.universalInstant d).1 (t.universalInstant d).2
  | .list items => .list (normalItems items)
  | .tuple items => .tuple (normalItems items)
  | .set items => .set (sortItems (normalItems items))
  | .object members => .object (sortByKey keyBefore (normalMembers members))
  | .record kind _ _ key members =>
    .record kind default "" (normalItems key) (normalMembers members)
  | v => v

/-- The normal forms of a list of values. -/
def normalItems : List Value → List Value
  | [] => []
  | v :: vs => normal v :: normalItems vs

/-- The normal forms of the keys and values of members. -/
def normalMembers : List (Value × Value) → List (Value × Value)
  | [] => []
  | (k, v) :: ms => (normal k, normal v) :: normalMembers ms

end

theorem normalItems_eq_map : ∀ items : List Value, normalItems items = items.map normal
  | [] => rfl
  | v :: vs => by simp [normalItems, normalItems_eq_map vs]

theorem normalMembers_eq_map :
    ∀ members : Members, normalMembers members = members.map fun m => (normal m.1, normal m.2)
  | [] => rfl
  | (k, v) :: ms => by simp [normalMembers, normalMembers_eq_map ms]

/-- Two values count as the same value. -/
def same (v w : Value) : Bool :=
  decide (normal v = normal w)

theorem same_iff {v w : Value} : same v w = true ↔ normal v = normal w := by
  simp [same]

theorem same_symm {v w : Value} (h : same v w = true) : same w v = true :=
  same_iff.mpr (same_iff.mp h).symm

mutual

/-- The value can be a key: it is no list and no object and contains none; for a record, what stands
for it contains none. -/
def isHashable : Value → Bool
  | .list _ | .object _ => false
  | .tuple items | .set items => areHashable items
  | .record _ _ _ key _ => areHashable key
  | _ => true

/-- All items can be keys. -/
def areHashable : List Value → Bool
  | [] => true
  | v :: vs => isHashable v && areHashable vs

end

mutual

/-- A bound for the length of the shortest text that denotes the value. -/
def weight : Value → Nat
  | .string s => 1 + s.length
  | .list items | .tuple items | .set items => 1 + itemsWeight items
  | .object members | .record _ _ _ _ members => 1 + membersWeight members
  | _ => 1

/-- The weight of the items of a list. -/
def itemsWeight : List Value → Nat
  | [] => 0
  | v :: vs => weight v + itemsWeight vs

/-- The weight of the members of an object. -/
def membersWeight : List (Value × Value) → Nat
  | [] => 0
  | (k, v) :: ms => weight k + weight v + membersWeight ms

end

theorem weight_pos : ∀ v : Value, 0 < weight v
  | .null | .bool _ | .int _ | .float _ | .bytes _ | .date _ | .time _ | .instant _ _ => by
    simp [weight]
  | .string _ | .list _ | .tuple _ | .set _ | .object _ | .record _ _ _ _ _ => by
    simp only [weight]; omega

end Value

namespace Members

/-- The value under a text. -/
def get? (members : Members) (key : String) : Option Value :=
  List.lookup (.string key) members

/-- The value under a key. -/
def find? (members : Members) (key : Value) : Option Value :=
  (List.find? (fun m => m.1.same key) members).map Prod.snd

/-- The members with a value assigned to a key. A key that is present, in whatever form, keeps its
place and its form; another one goes to the end. -/
def put (members : Members) (key value : Value) : Members :=
  match members with
  | [] => [(key, value)]
  | (k, v) :: ms => if k.same key then (k, value) :: ms else (k, v) :: put ms key value

/-- The members overlaid with other members. -/
def merge (members other : Members) : Members :=
  other.foldl (fun ms m => put ms m.1 m.2) members

/-- The members of a list of assignments: a repeated key keeps its first place and its last value.
-/
def ofAssignments (assignments : List (Value × Value)) : Members :=
  merge [] assignments

theorem get?_cons (k v : Value) (ms : Members) (key : String) :
    get? ((k, v) :: ms) key = if .string key = k then some v else get? ms key := by
  by_cases h : Value.string key = k
  · simp [get?, h]
  · simp [get?, List.lookup_cons, beq_eq_false_iff_ne.mpr h, h]

/-- The value under a key is lighter than the members. -/
theorem weight_of_get? {members : Members} {key : String} {v : Value}
    (h : get? members key = some v) : v.weight < Value.membersWeight members := by
  induction members with
  | nil => simp [get?] at h
  | cons m ms ih =>
    obtain ⟨k, w⟩ := m
    have := k.weight_pos
    rw [get?_cons] at h
    simp only [Value.membersWeight]
    split at h
    · simp only [Option.some.injEq] at h
      subst h; omega
    · have := ih h; omega

theorem weight_put (members : Members) (key value : Value) :
    Value.membersWeight (put members key value)
      ≤ Value.membersWeight members + (key.weight + value.weight) := by
  induction members with
  | nil => simp [put, Value.membersWeight]
  | cons m ms ih =>
    obtain ⟨k, w⟩ := m
    simp only [put]
    split
    · simp only [Value.membersWeight]; omega
    · simp only [Value.membersWeight]; omega

theorem weight_merge (members other : Members) :
    Value.membersWeight (merge members other)
      ≤ Value.membersWeight members + Value.membersWeight other := by
  induction other generalizing members with
  | nil => simp [merge, Value.membersWeight]
  | cons m ms ih =>
    have step := weight_put members m.1 m.2
    have rest := ih (put members m.1 m.2)
    simp only [merge, List.foldl_cons] at rest ⊢
    simp only [Value.membersWeight]
    omega

theorem weight_ofAssignments (assignments : List (Value × Value)) :
    Value.membersWeight (ofAssignments assignments) ≤ Value.membersWeight assignments := by
  simpa [ofAssignments, Value.membersWeight] using weight_merge [] assignments

end Members

end LogicalPlan
