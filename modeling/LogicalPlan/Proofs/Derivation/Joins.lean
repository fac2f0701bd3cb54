import Mathlib.Algebra.BigOperators.Group.List.Basic
import Mathlib.Algebra.GroupWithZero.Nat
import LogicalPlan.Proofs.Derivation.Located
import LogicalPlan.Proofs.Derivation.Uniqueness
import LogicalPlan.Proofs.Repetitions

/-!
# Columns of joins

A cross join has the columns of both inputs. A natural join has all columns of its left input and
those columns of its right input whose names it does not compare, so a name that the right input has
several times loses all of its columns. Both kinds of join are associative on schemas.

## Implementation notes

Columns are dropped by their names alone, while uniqueness tells them apart by alias and name. The
columns that are dropped are therefore counted for each compared name.
-/

namespace LogicalPlan

open Outcome

variable {span : Option SourceSpan}

namespace Schema

/-! ### Names -/

theorem hasName_cons (n : Value) (names : List Value) (name : Value) :
    hasName (n :: names) name = (n.same name || hasName names name) :=
  List.any_cons

theorem hasName_append (names others : List Value) (name : Value) :
    hasName (names ++ others) name = (hasName names name || hasName others name) :=
  List.any_append

/-- Names that count as the same one occur in the same lists. -/
theorem hasName_congr {v w : Value} (h : v.same w = true) (names : List Value) :
    hasName names v = hasName names w := by
  have alike (n : Value) : n.same v = n.same w := by
    rw [Bool.eq_iff_iff, Value.same_iff, Value.same_iff, Value.same_iff.mp h]
  unfold hasName
  simp only [alike]

theorem hasName_of_mem {names : List Value} {name : Value} (h : name ∈ names) :
    hasName names name = true :=
  List.any_eq_true.mpr ⟨name, h, Value.same_iff.mpr rfl⟩

theorem hasName_names_of_mem {s : Schema} {col : SchemaColumn} (h : col ∈ s.columns) :
    hasName s.names col.name = true :=
  hasName_of_mem (List.mem_map_of_mem h)

/-- A filter that does not tell names apart that count as the same one keeps a name or drops it. -/
theorem hasName_filter {keep : Value → Bool} {name : Value}
    (h : ∀ n, n.same name = true → keep n = keep name) (names : List Value) :
    hasName (names.filter keep) name = (hasName names name && keep name) := by
  induction names with
  | nil => rfl
  | cons n names ih =>
      rw [hasName_cons]
      cases hsame : n.same name with
      | false => cases hn : keep n <;> simp [hn, hasName_cons, hsame, ih]
      | true =>
          rw [Bool.true_or, Bool.true_and, ← h n hsame]
          cases hn : keep n with
          | false => simp [hn, ih, ← h n hsame]
          | true => simp [hn, hasName_cons, hsame]

/-- The search for distinct names finds all names. -/
@[simp] theorem hasName_distinctNames (names : List Value) (name : Value) :
    hasName (distinctNames names) name = hasName names name := by
  have congr (a b c : Value) (h : a.same b = true) : a.same c = b.same c := by
    rw [Bool.eq_iff_iff, Value.same_iff, Value.same_iff, Value.same_iff.mp h]
  exact (any_foldl_distinct congr names [] name).trans (Bool.false_or _)

theorem pairwise_distinctNames (names : List Value) :
    (distinctNames names).Pairwise fun a b => a.same b = false :=
  pairwise_foldl_distinct names .nil

/-- The number of columns that have the name. -/
def countName (s : Schema) (name : Value) : Nat :=
  s.columns.countP fun col => name.same col.name

/-- Columns are counted apart by conditions that exclude each other. -/
theorem countP_or {first second : SchemaColumn → Bool}
    (h : ∀ col, first col = true → second col = false) (columns : List SchemaColumn) :
    columns.countP (fun col => first col || second col) =
      columns.countP first + columns.countP second := by
  induction columns with
  | nil => rfl
  | cons col columns ih =>
      simp only [List.countP_cons, ih]
      cases hfirst : first col with
      | false => simp [Nat.add_assoc]
      | true =>
          simp only [h col hfirst, Bool.true_or, Bool.false_eq_true, if_true, if_false]
          omega

/-- Each column has at most one of several distinct names. -/
theorem countP_hasName {names : List Value} (h : names.Pairwise fun a b => a.same b = false)
    (s : Schema) :
    s.columns.countP (fun col => hasName names col.name) = (names.map s.countName).sum := by
  induction names with
  | nil => simp [hasName]
  | cons n names ih =>
      obtain ⟨hn, hnames⟩ := List.pairwise_cons.mp h
      have apart (col : SchemaColumn) (hcol : n.same col.name = true) :
          hasName names col.name = false := by
        rw [← hasName_congr hcol]
        refine Bool.eq_false_iff.mpr fun hmem => ?_
        obtain ⟨m, hm, hsame⟩ := List.any_eq_true.mp hmem
        have different := hn m hm
        rw [Value.same_symm hsame] at different
        cases different
      simp only [hasName_cons]
      rw [countP_or apart, ih hnames, List.map_cons, List.sum_cons, countName]

/-! ### Schemas side by side -/

theorem isKeyed_iff {s : Schema} : s.IsKeyed ↔ ∀ col ∈ s.columns, col.key.isHashable = true := by
  refine forall₂_congr fun col _ => ?_
  simp [SchemaColumn.IsKeyed, SchemaColumn.key, Value.isHashable, Value.areHashable, and_comm]

theorem isHashable_of_uniqueAfter {text : String} {seen : List Value} {columns : List SchemaColumn}
    (h : uniqueAfter text span seen columns = .ok ()) :
    ∀ col ∈ columns, col.key.isHashable = true := by
  induction columns generalizing seen with
  | nil => nofun
  | cons col cols ih =>
      unfold uniqueAfter at h
      split at h
      · cases h
      case isFalse hcol =>
        split at h
        · cases h
        · exact List.forall_mem_cons.mpr ⟨by simpa using hcol, ih h⟩

/-- The check finds out whether columns can be keys and are unique. -/
theorem assertUnique_eq_ok_iff {s : Schema} :
    s.assertUnique span = .ok () ↔ s.IsKeyed ∧ s.IsUnique := by
  rw [isKeyed_iff]
  constructor
  · intro h
    exact ⟨isHashable_of_uniqueAfter h, isUnique_of_assertUnique h⟩
  · rintro ⟨hkeys, hunique⟩
    exact assertUnique_eq_ok hkeys hunique

theorem concat_eq_ok_iff {s t u : Schema} :
    s.concat t span = .ok u ↔ u = ⟨s.columns ++ t.columns⟩ ∧ u.IsKeyed ∧ u.IsUnique := by
  constructor
  · intro h
    obtain ⟨_, hunique, h⟩ := bind_eq_ok.mp h
    cases h
    exact ⟨rfl, assertUnique_eq_ok_iff.mp hunique⟩
  · rintro ⟨rfl, h⟩
    exact bind_eq_ok.mpr ⟨(), assertUnique_eq_ok_iff.mpr h, rfl⟩

theorem IsUnique.sublist {s t : Schema} (ht : t.IsUnique) (h : s.columns.Sublist t.columns) :
    s.IsUnique :=
  List.Pairwise.sublist h ht

theorem IsKeyed.sublist {s t : Schema} (ht : t.IsKeyed) (h : s.columns.Sublist t.columns) :
    s.IsKeyed :=
  fun col hcol => ht col (h.subset hcol)

/-- Three schemas side by side pass the check in either bracketing if they pass it together. -/
theorem concat_concat_eq_ok_iff {s t u w : Schema} (at₁ at₂ : Option SourceSpan) :
    ((∃ v, s.concat t at₁ = .ok v ∧ v.concat u at₂ = .ok w) ↔
      w = ⟨s.columns ++ (t.columns ++ u.columns)⟩ ∧ w.IsKeyed ∧ w.IsUnique) ∧
    ((∃ v, t.concat u at₁ = .ok v ∧ s.concat v at₂ = .ok w) ↔
      w = ⟨s.columns ++ (t.columns ++ u.columns)⟩ ∧ w.IsKeyed ∧ w.IsUnique) := by
  simp only [concat_eq_ok_iff]
  constructor
  · constructor
    · rintro ⟨v, ⟨rfl, -⟩, rfl, h⟩
      exact ⟨by rw [List.append_assoc], h⟩
    · rintro ⟨rfl, hkeyed, hunique⟩
      have front : (s.columns ++ t.columns).Sublist (s.columns ++ (t.columns ++ u.columns)) := by
        rw [← List.append_assoc]
        exact List.sublist_append_left _ _
      exact ⟨_, ⟨rfl, hkeyed.sublist front, hunique.sublist front⟩,
        by rw [List.append_assoc], hkeyed, hunique⟩
  · constructor
    · rintro ⟨v, ⟨rfl, -⟩, rfl, h⟩
      exact ⟨rfl, h⟩
    · rintro ⟨rfl, hkeyed, hunique⟩
      have back : (t.columns ++ u.columns).Sublist (s.columns ++ (t.columns ++ u.columns)) :=
        List.sublist_append_right _ _
      exact ⟨_, ⟨rfl, hkeyed.sublist back, hunique.sublist back⟩, rfl, hkeyed, hunique⟩

/-! ### Natural joins -/

/-- The names that a natural join compares: the listed ones, or all shared ones, each of them once.
-/
def joinNames (columns : Option (List Value)) (s t : Schema) : List Value :=
  distinctNames (columns.getD (s.names.filter (hasName t.names)))

/-- The left schema, and the columns of the right one whose names are not compared. -/
def naturalJoin (columns : Option (List Value)) (s t : Schema) : Schema :=
  ⟨s.columns ++ t.columns.filter fun col => !hasName (joinNames columns s t) col.name⟩

/-- A column of the right schema has a shared name if the left schema has that name. -/
theorem hasName_joinNames_none {s t : Schema} {col : SchemaColumn} (h : col ∈ t.columns) :
    hasName (joinNames none s t) col.name = hasName s.names col.name := by
  have others (n : Value) (hsame : n.same col.name = true) :
      hasName t.names n = hasName t.names col.name := hasName_congr hsame t.names
  simp [joinNames, hasName_filter others, hasName_names_of_mem h]

theorem sharedNames_eq_ok_iff {s t : Schema} {names : List Value} :
    s.sharedNames t = .ok names ↔
      (t.names.all Value.isHashable && s.names.all Value.isHashable) = true ∧
        names = joinNames none s t := by
  unfold sharedNames
  split
  case isTrue h => simp [h, joinNames, eq_comm]
  case isFalse h => simp [h, wrongType]

theorem joinColumns_eq_ok_iff {columns : Option (List Value)} {shared names : List Value} :
    joinColumns columns shared span = .ok names ↔
      (∀ name ∈ columns.getD [], hasName shared name = true) ∧ names = columns.getD shared := by
  cases columns with
  | none =>
      constructor
      · rintro ⟨⟩
        exact ⟨nofun, rfl⟩
      · rintro ⟨-, rfl⟩
        rfl
  | some listed =>
      have checked : (listed.forM fun name => if hasName shared name then (.ok () : Outcome Unit)
          else .error
            (.ofQuery Message.joinColumnMissing (Members.ofFields [("column", name)]) span)) =
            .ok () ↔ ∀ name ∈ listed, hasName shared name = true := by
        rw [forM_eq_ok]
        refine forall₂_congr fun name _ => ?_
        split <;> simp_all
      unfold joinColumns
      constructor
      · intro h
        obtain ⟨_, hshared, h⟩ := bind_eq_ok.mp h
        cases h
        exact ⟨checked.mp hshared, rfl⟩
      · rintro ⟨hshared, rfl⟩
        exact bind_eq_ok.mpr ⟨(), checked.mpr hshared, rfl⟩

/-- A natural join has a schema exactly if the names can be keys, the listed ones are shared, and
the columns that are left pass the check. -/
theorem derive_natural_eq_ok_iff {columns : Option (List Value)} {s t u : Schema} :
    (JoinCondition.natural columns).derive span s t = .ok u ↔
      (t.names.all Value.isHashable && s.names.all Value.isHashable) = true ∧
        (∀ name ∈ columns.getD [], hasName (joinNames none s t) name = true) ∧
          u = naturalJoin columns s t ∧ u.IsKeyed ∧ u.IsUnique := by
  have alike (name : Value) : hasName (columns.getD (joinNames none s t)) name =
      hasName (joinNames columns s t) name := by
    cases columns <;> simp [joinNames]
  simp only [JoinCondition.derive, bind_eq_ok, sharedNames_eq_ok_iff, joinColumns_eq_ok_iff,
    concat_eq_ok_iff, naturalJoin]
  constructor
  · rintro ⟨_, ⟨hkeys, rfl⟩, _, ⟨hlisted, rfl⟩, h⟩
    simp only [alike] at h
    exact ⟨hkeys, hlisted, h⟩
  · rintro ⟨hkeys, hlisted, h⟩
    refine ⟨_, ⟨hkeys, rfl⟩, _, ⟨hlisted, rfl⟩, ?_⟩
    simp only [alike]
    exact h

/-- What a natural join compares occurs in both inputs. -/
theorem shared_of_mem_joinNames {columns : Option (List Value)} {s t : Schema}
    (hlisted : ∀ name ∈ columns.getD [], hasName (joinNames none s t) name = true) {name : Value}
    (hname : name ∈ joinNames columns s t) :
    hasName s.names name = true ∧ hasName t.names name = true := by
  have shared : hasName (joinNames none s t) name = true := by
    cases columns with
    | none => exact hasName_of_mem hname
    | some listed =>
        have occurs := hasName_of_mem hname
        rw [joinNames, hasName_distinctNames] at occurs
        obtain ⟨other, hother, hsame⟩ := List.any_eq_true.mp occurs
        rw [← hasName_congr hsame]
        exact hlisted other hother
  have others (n : Value) (hsame : n.same name = true) :
      hasName t.names n = hasName t.names name := hasName_congr hsame t.names
  simpa [joinNames, hasName_filter others] using shared

/-- Numbers from one on add up to their number exactly if all of them are one. -/
theorem sum_eq_length_iff {names : List Value} {count : Value → Nat}
    (h : ∀ name ∈ names, 1 ≤ count name) :
    (names.map count).sum = names.length ↔ ∀ name ∈ names, count name = 1 := by
  induction names with
  | nil => simp
  | cons n names ih =>
      obtain ⟨hn, hnames⟩ := List.forall_mem_cons.mp h
      have bound : names.length ≤ (names.map count).sum := by
        simpa using List.length_le_sum_of_one_le (names.map count) (by simpa using hnames)
      rw [List.map_cons, List.sum_cons, List.length_cons, List.forall_mem_cons, ← ih hnames]
      omega

theorem one_le_countName {s : Schema} {name : Value} (h : hasName s.names name = true) :
    1 ≤ s.countName name := by
  obtain ⟨other, hother, hsame⟩ := List.any_eq_true.mp h
  obtain ⟨col, hcol, rfl⟩ := List.mem_map.mp hother
  exact List.countP_pos_iff.mpr ⟨col, hcol, Value.same_symm hsame⟩

/-- Every column of the inputs is there or is a column of the right input with a compared name. -/
theorem size_naturalJoin (columns : Option (List Value)) (s t : Schema) :
    (naturalJoin columns s t).size + ((joinNames columns s t).map t.countName).sum =
      s.size + t.size := by
  have dropped : ((joinNames columns s t).map t.countName).sum =
      t.columns.countP fun col => hasName (joinNames columns s t) col.name :=
    (countP_hasName (pairwise_distinctNames _) t).symm
  have parts : t.size = t.columns.countP (fun col => hasName (joinNames columns s t) col.name) +
      t.columns.countP (fun col => !hasName (joinNames columns s t) col.name) := by
    simpa [size] using List.length_eq_countP_add_countP _ (l := t.columns)
  have joined : (naturalJoin columns s t).size = s.size +
      t.columns.countP fun col => !hasName (joinNames columns s t) col.name := by
    simp [naturalJoin, size, List.countP_eq_length_filter]
  omega

@[simp] theorem columns_naturalJoin_none (s t : Schema) :
    (naturalJoin none s t).columns =
      s.columns ++ t.columns.filter fun col => !hasName s.names col.name := by
  refine congrArg (s.columns ++ ·) (List.filter_congr fun col hcol => ?_)
  rw [hasName_joinNames_none hcol]

theorem names_naturalJoin_none (s t : Schema) :
    (naturalJoin none s t).names = s.names ++ t.names.filter fun name => !hasName s.names name := by
  simp [names, List.filter_map, Function.comp_def]

/-- The names of a natural join are those of both inputs. -/
@[simp] theorem hasName_naturalJoin_none (s t : Schema) (name : Value) :
    hasName (naturalJoin none s t).names name = (hasName s.names name || hasName t.names name) := by
  have others (n : Value) (hsame : n.same name = true) :
      (!hasName s.names n) = !hasName s.names name := by rw [hasName_congr hsame]
  rw [names_naturalJoin_none, hasName_append, hasName_filter others]
  cases hasName s.names name <;> simp

theorem naturalJoin_none_assoc (s t u : Schema) :
    naturalJoin none (naturalJoin none s t) u = naturalJoin none s (naturalJoin none t u) := by
  suffices columns : (naturalJoin none (naturalJoin none s t) u).columns =
      (naturalJoin none s (naturalJoin none t u)).columns from congrArg Schema.mk columns
  simp only [columns_naturalJoin_none, hasName_naturalJoin_none, List.filter_append,
    List.filter_filter, Bool.not_or, List.append_assoc]

/-- A natural join repeats no column of its inputs: what the right one adds has other names. -/
theorem IsUnique.naturalJoin_none {s t : Schema} (hs : s.IsUnique) (ht : t.IsUnique) :
    (naturalJoin none s t).IsUnique := by
  unfold IsUnique
  rw [columns_naturalJoin_none]
  refine List.pairwise_append.mpr ⟨hs, ht.filter _, fun a ha b hb => ?_⟩
  have fresh : hasName s.names b.name = false := by simpa using (List.mem_filter.mp hb).2
  rw [SchemaColumn.same_key, Bool.and_eq_false_iff]
  refine .inr (Bool.eq_false_iff.mpr fun hsame => ?_)
  rw [← hasName_congr hsame, hasName_names_of_mem ha] at fresh
  cases fresh

theorem IsKeyed.naturalJoin_none {s t : Schema} (hs : s.IsKeyed) (ht : t.IsKeyed) :
    (naturalJoin none s t).IsKeyed := by
  intro col hcol
  rw [columns_naturalJoin_none] at hcol
  rcases List.mem_append.mp hcol with hcol | hcol
  · exact hs col hcol
  · exact ht col (List.mem_filter.mp hcol).1

/-- Schemas that pass the check have a natural join, which passes the check again. -/
theorem derive_natural_none {s t : Schema} (hs : s.IsKeyed ∧ s.IsUnique)
    (ht : t.IsKeyed ∧ t.IsUnique) :
    (JoinCondition.natural none).derive span s t = .ok (naturalJoin none s t) ∧
      (naturalJoin none s t).IsKeyed ∧ (naturalJoin none s t).IsUnique := by
  have checked := And.intro (hs.1.naturalJoin_none ht.1) (hs.2.naturalJoin_none ht.2)
  refine ⟨derive_natural_eq_ok_iff.mpr ⟨?_, by simp, rfl, checked⟩, checked⟩
  rw [ht.1.names, hs.1.names]
  rfl

end Schema

/-! ### Plans -/

namespace Plan

variable {notes outer inner outer' inner' : Notes} {p q r left right : Plan} {s t u : Schema}

/-- The inputs of a binary node with a schema have schemas, from which the operator derives it. -/
theorem schema_binary_eq_ok_iff {op : BinaryOp} :
    (binary notes op left right).schema = .ok u ↔
      ∃ s t, left.schema = .ok s ∧ right.schema = .ok t ∧ op.derive notes.span s t = .ok u := by
  constructor
  · intro h
    obtain ⟨s, hs, h⟩ := bind_eq_ok.mp h
    obtain ⟨t, ht, h⟩ := bind_eq_ok.mp h
    exact ⟨s, t, hs, ht, h⟩
  · rintro ⟨s, t, hs, ht, h⟩
    exact bind_eq_ok.mpr ⟨s, hs, bind_eq_ok.mpr ⟨t, ht, h⟩⟩

/-- A natural join has all columns of its left input and then, in order, those columns of its right
input that have none of the compared names, which occur in both inputs. Exactly one column is left
out for each compared name if and only if no compared name occurs twice in the right input, as it
can under different aliases. -/
theorem naturalJoin_columns {kind : JoinKind} {columns : Option (List Value)}
    (h : (binary notes (.join kind (.natural columns)) left right).schema = .ok u) :
    ∃ s t, left.schema = .ok s ∧ right.schema = .ok t ∧
      u.columns = s.columns ++
        t.columns.filter (fun col => !Schema.hasName (Schema.joinNames columns s t) col.name) ∧
      (∀ name ∈ Schema.joinNames columns s t, 1 ≤ s.countName name ∧ 1 ≤ t.countName name) ∧
      u.size + ((Schema.joinNames columns s t).map t.countName).sum = s.size + t.size ∧
      (u.size + (Schema.joinNames columns s t).length = s.size + t.size ↔
        ∀ name ∈ Schema.joinNames columns s t, t.countName name = 1) := by
  obtain ⟨s, t, hs, ht, h⟩ := schema_binary_eq_ok_iff.mp h
  obtain ⟨-, hlisted, rfl, -⟩ := Schema.derive_natural_eq_ok_iff.mp h
  have occurs : ∀ name ∈ Schema.joinNames columns s t,
      1 ≤ s.countName name ∧ 1 ≤ t.countName name := by
    intro name hname
    obtain ⟨hleft, hright⟩ := Schema.shared_of_mem_joinNames hlisted hname
    exact ⟨Schema.one_le_countName hleft, Schema.one_le_countName hright⟩
  have total := Schema.size_naturalJoin columns s t
  refine ⟨s, t, hs, ht, rfl, occurs, total, ?_⟩
  have once := Schema.sum_eq_length_iff fun name hname => (occurs name hname).2
  rw [← once]
  omega

namespace Sample

/-- Pairs of rows of two tables, joined with a third table by their common column, which is listed
twice: one column is left out. -/
theorem naturalJoin_columns_listed :
    ∃ u, (binary {} (.join .leftOuter (.natural (some [.string "a", .string "a"])))
        (binary {} .cross (relation "R") (relation "S")) (relation "T")).schema = .ok u ∧
      u.size + 1 = 2 + 1 := by
  refine ⟨_, rfl, ?_⟩
  obtain ⟨s, t, hs, ht, -, -, -, once⟩ := @naturalJoin_columns {}
    (binary {} .cross (relation "R") (relation "S")) (relation "T") _ .leftOuter
    (some [.string "a", .string "a"]) rfl
  cases hs
  cases ht
  exact once.mpr (by decide)

/-- A join on `a` with the pairs of rows of two tables leaves out the column `a` of both of them. -/
theorem naturalJoin_columns_repeated :
    ∃ s t u : Schema, (relation "R").schema = .ok s ∧
      (binary {} .cross (relation "S") (relation "T")).schema = .ok t ∧
      (binary {} (.join .inner (.natural none)) (relation "R")
        (binary {} .cross (relation "S") (relation "T"))).schema = .ok u ∧
      s.IsUnique ∧ t.IsUnique ∧ Schema.joinNames none s t = [.string "a"] ∧
      u.columns = s.columns ∧ u.size + 1 ≠ s.size + t.size := by
  refine ⟨_, _, _, rfl, rfl, rfl, ?_⟩
  decide

end Sample

/-- Natural joins of tables with unique columns have the same schema in either bracketing, and its
names are those of the three tables. Cross joins have a schema in one bracketing if they have it in
the other one. -/
theorem joins_assoc (hp : p.schema = .ok s) (hq : q.schema = .ok t) (hr : r.schema = .ok u)
    (hs : s.IsKeyed ∧ s.IsUnique) (ht : t.IsKeyed ∧ t.IsUnique) (hu : u.IsKeyed ∧ u.IsUnique) :
    (∃ w,
      (binary outer (.join .inner (.natural none))
        (binary inner (.join .inner (.natural none)) p q) r).schema = .ok w ∧
      (binary outer' (.join .inner (.natural none)) p
        (binary inner' (.join .inner (.natural none)) q r)).schema = .ok w ∧
      ∀ name, Schema.hasName w.names name =
        (Schema.hasName s.names name || Schema.hasName t.names name ||
          Schema.hasName u.names name)) ∧
    ∀ w, (binary outer .cross (binary inner .cross p q) r).schema = .ok w ↔
      (binary outer' .cross p (binary inner' .cross q r)).schema = .ok w := by
  constructor
  · obtain ⟨hpq, hst⟩ := @Schema.derive_natural_none inner.span _ _ hs ht
    obtain ⟨hqr, htu⟩ := @Schema.derive_natural_none inner'.span _ _ ht hu
    refine ⟨Schema.naturalJoin none (Schema.naturalJoin none s t) u, ?_, ?_, by simp⟩
    · apply schema_binary_eq_ok_iff.mpr
      exact ⟨_, u, schema_binary_eq_ok_iff.mpr ⟨s, t, hp, hq, hpq⟩, hr,
        (Schema.derive_natural_none hst hu).1⟩
    · rw [Schema.naturalJoin_none_assoc]
      apply schema_binary_eq_ok_iff.mpr
      exact ⟨s, _, hp, schema_binary_eq_ok_iff.mpr ⟨t, u, hq, hr, hqr⟩,
        (Schema.derive_natural_none hs htu).1⟩
  · intro w
    have crossed {notes : Notes} {left right : Plan} {w : Schema} :
        (binary notes .cross left right).schema = .ok w ↔
          ∃ s t, left.schema = .ok s ∧ right.schema = .ok t ∧ s.concat t notes.span = .ok w :=
      schema_binary_eq_ok_iff
    calc (binary outer .cross (binary inner .cross p q) r).schema = .ok w
        ↔ ∃ v, s.concat t inner.span = .ok v ∧ v.concat u outer.span = .ok w := by
          simp [crossed, hp, hq, hr]
      _ ↔ ∃ v, t.concat u inner'.span = .ok v ∧ s.concat v outer'.span = .ok w := by
          rw [(Schema.concat_concat_eq_ok_iff _ _).1, (Schema.concat_concat_eq_ok_iff _ _).2]
      _ ↔ (binary outer' .cross p (binary inner' .cross q r)).schema = .ok w := by
          simp [crossed, hp, hq, hr]

namespace Sample

/-- Three tables with one column each, all of them named `a`. -/
theorem joins_assoc_shared :
    (∃ w : Schema, (binary {} (.join .inner (.natural none))
        (binary {} (.join .inner (.natural none)) (relation "R") (relation "S"))
        (relation "T")).schema = .ok w ∧
      (binary {} (.join .inner (.natural none)) (relation "R")
        (binary {} (.join .inner (.natural none)) (relation "S") (relation "T"))).schema = .ok w ∧
      w.size = 1) ∧
    ∃ w : Schema,
      (binary {} .cross (binary {} .cross (relation "R") (relation "S"))
        (relation "T")).schema = .ok w ∧
      (binary {} .cross (relation "R")
        (binary {} .cross (relation "S") (relation "T"))).schema = .ok w ∧
      w.size = 3 := by
  obtain ⟨⟨w, hleft, hright, -⟩, crossed⟩ := @joins_assoc {} {} {} {} (relation "R") (relation "S")
    (relation "T") _ _ _ rfl rfl rfl (by decide) (by decide) (by decide)
  constructor
  · refine ⟨w, hleft, hright, ?_⟩
    cases hleft
    rfl
  · exact ⟨_, rfl, (crossed _).mp rfl, rfl⟩

end Sample

end Plan

end LogicalPlan
