import LogicalPlan.Proofs.Derivation.Joins

/-!
# References above joins

A reference keeps its meaning when it is qualified by the alias of the column that it denotes, and
when the columns of another schema are put beside those of the schema that it is resolved in, as
long as none of these columns fits it too. Hence a condition on one input of a join has the same
type above the join.

## Implementation notes

The candidates for a name in two schemas side by side are those of the first one, followed by those
of the second one with their positions shifted. The name resolves if there is one candidate in all,
so it has its candidate on one side and none on the other.
-/

namespace LogicalPlan

open Outcome

variable {span : Option SourceSpan} {c : Column} {s t : Schema}

/-- A column that fits a qualified reference fits the bare one too. -/
theorem SchemaColumn.accepts_bare {col : SchemaColumn} {relAlias : Value}
    (hbare : c.relAlias = .null)
    (h : col.accepts ⟨c.name, relAlias⟩ = true) : col.accepts c = true := by
  rw [accepts, Bool.and_eq_true] at h
  simp [accepts, hbare, h.2]

namespace Schema

/-- No column of the schema fits the reference. -/
def Lacks (s : Schema) (c : Column) : Prop :=
  ∀ col ∈ s.columns, col.accepts c = false

instance (s : Schema) (c : Column) : Decidable (s.Lacks c) :=
  inferInstanceAs (Decidable (∀ _ ∈ _, _))

/-- The columns of both schemas side by side. -/
def beside (s t : Schema) : Schema :=
  ⟨s.columns ++ t.columns⟩

@[simp] theorem size_beside (s t : Schema) : (s.beside t).size = s.size + t.size :=
  List.length_append

theorem eq_beside_of_concat {u : Schema} (h : s.concat t span = .ok u) : u = s.beside t :=
  (concat_eq_ok_iff.mp h).1

/-! ### Qualification -/

/-- A bare reference can be qualified by the alias of the column that it denotes. -/
theorem indexOf_qualified (hbare : c.relAlias = .null) {i : Nat} {col : SchemaColumn}
    (h : s.indexOf c span = .ok i) (hcol : s.columns[i]? = some col) :
    s.indexOf ⟨c.name, col.relAlias⟩ span = .ok i := by
  cases hk : c.name.toInt? with
  | some k =>
      apply (indexOf_position (c := ⟨c.name, col.relAlias⟩) hk).mpr
      exact (indexOf_position hk).mp h
  | none =>
      obtain ⟨col', hcol', haccepts, hunique⟩ := (indexOf_name hk).mp h
      cases hcol.symm.trans hcol'
      apply (indexOf_name (c := ⟨c.name, col.relAlias⟩) hk).mpr
      refine ⟨col, hcol, ?_, fun j other hother hfits => ?_⟩
      · rw [SchemaColumn.accepts, Bool.and_eq_true] at haccepts ⊢
        exact ⟨by simp [Value.same_iff], haccepts.2⟩
      · exact hunique j other hother (SchemaColumn.accepts_bare hbare hfits)

/-- An empty alias counts as none, and the reference stays bare. -/
theorem indexOf_make (hbare : c.relAlias = .null) {i : Nat} {col : SchemaColumn} {d : Column}
    (h : s.indexOf c span = .ok i) (hcol : s.columns[i]? = some col)
    (hd : Column.make c.name col.relAlias = .ok d) : s.indexOf d span = .ok i := by
  rw [Column.eq_of_make hd]
  split
  · exact indexOf_qualified hbare h hcol
  · rw [← hbare]
    exact h

/-! ### Candidates side by side -/

theorem candidates_append (start : Nat) (columns others : List SchemaColumn) :
    candidates c start (columns ++ others) =
      candidates c start columns ++ candidates c (start + columns.length) others := by
  induction columns generalizing start with
  | nil => rfl
  | cons col columns ih =>
      have next : start + 1 + columns.length = start + (columns.length + 1) := by omega
      rw [List.cons_append, candidates, candidates, ih, next, List.length_cons]
      split <;> rfl

theorem candidates_shift (start : Nat) (columns : List SchemaColumn) :
    candidates c start columns = (candidates c 0 columns).map (start + ·) := by
  induction columns generalizing start with
  | nil => rfl
  | cons col columns ih =>
      rw [candidates, candidates, ih (start + 1), ih (0 + 1)]
      split <;> simp [Function.comp_def, Nat.add_assoc]

theorem candidates_eq_nil_iff : candidates c 0 s.columns = [] ↔ s.Lacks c := by
  rw [List.eq_nil_iff_forall_not_mem]
  constructor
  · intro h col hcol
    obtain ⟨j, hj⟩ := List.getElem?_of_mem hcol
    refine Bool.eq_false_iff.mpr fun hfits => h (0 + j) ?_
    exact mem_candidates.mpr ⟨j, col, hj, rfl, hfits⟩
  · intro h i hi
    obtain ⟨j, col, hcol, -, hfits⟩ := mem_candidates.mp hi
    rw [h col (List.mem_of_getElem? hcol)] at hfits
    cases hfits

/-- A name denotes a column of two schemas side by side if it denotes the column in its own schema
and the other schema lacks it. -/
theorem indexOf_beside_iff (hname : c.isIndex = false) {i : Nat} :
    (s.beside t).indexOf c span = .ok i ↔
      s.indexOf c span = .ok i ∧ t.Lacks c ∨
        s.size ≤ i ∧ t.indexOf c span = .ok (i - s.size) ∧ s.Lacks c := by
  have name : c.name.toInt? = none := by simpa [Column.isIndex] using hname
  have shifted : (candidates c 0 t.columns).map (0 + s.columns.length + ·) = [i] ↔
      s.size ≤ i ∧ candidates c 0 t.columns = [i - s.size] := by
    rw [List.map_eq_singleton_iff, Nat.zero_add]
    constructor
    · rintro ⟨j, hj, rfl⟩
      exact ⟨Nat.le_add_right _ _, by rw [hj, size, Nat.add_sub_cancel_left]⟩
    · rintro ⟨hle, hfound⟩
      exact ⟨_, hfound, Nat.add_sub_cancel' hle⟩
  rw [indexOf_candidate name, indexOf_candidate name, indexOf_candidate name,
    ← candidates_eq_nil_iff, ← candidates_eq_nil_iff, beside, candidates_append,
    candidates_shift (0 + s.columns.length), List.append_eq_singleton_iff, shifted]
  simp only [List.map_eq_nil_iff]
  tauto

/-- What a reference denotes in two schemas side by side, it denotes in the one that has the column,
unless it is a position in the second one. -/
theorem indexOf_of_beside {i : Nat} (h : (s.beside t).indexOf c span = .ok i) :
    i < s.size ∧ s.indexOf c span = .ok i ∨
      s.size ≤ i ∧ (c.isIndex = false → t.indexOf c span = .ok (i - s.size) ∧ s.Lacks c) := by
  cases hname : c.isIndex with
  | false =>
      rcases (indexOf_beside_iff hname).mp h with ⟨hs, -⟩ | ⟨hle, ht⟩
      · exact .inl ⟨lt_size_of_indexOf hs, hs⟩
      · exact .inr ⟨hle, fun _ => ht⟩
  | true =>
      obtain ⟨k, hk⟩ := Option.isSome_iff_exists.mp hname
      rcases Nat.lt_or_ge i s.size with hi | hi
      · exact .inl ⟨hi, (indexOf_position hk).mpr ⟨hi, ((indexOf_position hk).mp h).2⟩⟩
      · exact .inr ⟨hi, nofun⟩

theorem indexOf_beside_left (hname : c.isIndex = false) {i : Nat} (h : s.indexOf c span = .ok i)
    (ht : t.Lacks c) : (s.beside t).indexOf c span = .ok i :=
  (indexOf_beside_iff hname).mpr (.inl ⟨h, ht⟩)

theorem indexOf_beside_right (hname : c.isIndex = false) {i : Nat} (h : t.indexOf c span = .ok i)
    (hs : s.Lacks c) : (s.beside t).indexOf c span = .ok (s.size + i) := by
  refine (indexOf_beside_iff hname).mpr (.inr ⟨Nat.le_add_right _ _, ?_, hs⟩)
  rw [Nat.add_sub_cancel_left]
  exact h

theorem resolve_beside_left (hname : c.isIndex = false) {col : SchemaColumn}
    (h : s.resolve c span = .ok col) (ht : t.Lacks c) : (s.beside t).resolve c span = .ok col := by
  obtain ⟨i, hi, hcol⟩ := resolve_eq_ok.mp h
  refine resolve_eq_ok.mpr ⟨i, indexOf_beside_left hname hi ht, ?_⟩
  rw [beside, List.getElem?_append_left (lt_size_of_indexOf hi)]
  exact hcol

theorem resolve_beside_right (hname : c.isIndex = false) {col : SchemaColumn}
    (h : t.resolve c span = .ok col) (hs : s.Lacks c) : (s.beside t).resolve c span = .ok col := by
  obtain ⟨i, hi, hcol⟩ := resolve_eq_ok.mp h
  refine resolve_eq_ok.mpr ⟨s.size + i, indexOf_beside_right hname hi hs, ?_⟩
  rw [beside, size, List.getElem?_append_right (Nat.le_add_right _ _), Nat.add_sub_cancel_left]
  exact hcol

end Schema

/-! ### Conditions -/

namespace Expr

/-- All references of the expression are names, and no column of the schema fits one of them. -/
def Avoids (e : Expr) (s : Schema) : Prop :=
  ∀ part ∈ e.walk, ∀ c ∈ part.column?, c.isIndex = false ∧ s.Lacks c

instance (e : Expr) (s : Schema) : Decidable (e.Avoids s) :=
  inferInstanceAs (Decidable (∀ _ ∈ _, ∀ _ ∈ _, _))

/-- An expression has its type in every schema in which its references stand for the same columns.
-/
theorem typeIn_of_resolve {e : Expr} {u : Schema} {type : Value}
    (carry : ∀ part ∈ e.walk, ∀ c ∈ part.column?, ∀ (at₁ : Option SourceSpan) (col : SchemaColumn),
      s.resolve c at₁ = .ok col → u.resolve c at₁ = .ok col)
    (h : e.typeIn s span = .ok type) : e.typeIn u span = .ok type := by
  obtain ⟨_, hparts, htype⟩ := bind_eq_ok.mp h
  refine bind_eq_ok.mpr ⟨(), forM_eq_ok.mpr fun part hpart => ?parts, ?type⟩
  case parts =>
    have found := forM_eq_ok.mp hparts part hpart
    cases part with
    | apply => rfl
    | column origin c =>
        obtain ⟨i, hi⟩ := discard_eq_ok.mp found
        obtain ⟨col, -, hcol⟩ := Schema.exists_resolve hi
        obtain ⟨j, hj, -⟩ := Schema.resolve_eq_ok.mp (carry _ hpart c rfl _ col hcol)
        exact discard_eq_ok.mpr ⟨j, hj⟩
  case type =>
    cases e with
    | apply => exact htype
    | column origin c =>
        obtain ⟨col, hcol, rfl⟩ := map_eq_ok.mp htype
        exact map_eq_ok.mpr ⟨col, carry _ (mem_walk_self _) c rfl _ col hcol, rfl⟩

theorem Avoids.typeIn_beside_left {e : Expr} {type : Value} (ht : e.Avoids t)
    (h : e.typeIn s span = .ok type) : e.typeIn (s.beside t) span = .ok type := by
  apply typeIn_of_resolve _ h
  intro part hpart c hc at₁ col hcol
  obtain ⟨hname, lacks⟩ := ht part hpart c hc
  exact Schema.resolve_beside_left hname hcol lacks

theorem Avoids.typeIn_beside_right {e : Expr} {type : Value} (hs : e.Avoids s)
    (h : e.typeIn t span = .ok type) : e.typeIn (s.beside t) span = .ok type := by
  apply typeIn_of_resolve _ h
  intro part hpart c hc at₁ col hcol
  obtain ⟨hname, lacks⟩ := hs part hpart c hc
  exact Schema.resolve_beside_right hname hcol lacks

end Expr

namespace Schema

/-- A reference denotes a column of the schema, and the same one if it is qualified by the alias of
this column. In the concatenation of two schemas it denotes a column of the first one that it
denotes there, or one of the second one; if it is a name, it denotes that column there and fits none
of the first schema. A name that one schema lacks denotes in the concatenation what it denotes in
the other one, so a condition on one of them keeps its type. -/
theorem resolution_stable (s t : Schema) (c : Column) (span : Option SourceSpan) :
    (∀ i, s.indexOf c span = .ok i → i < s.size) ∧
    (∀ i col d, c.relAlias = .null → s.indexOf c span = .ok i → s.columns[i]? = some col →
      d = ⟨c.name, col.relAlias⟩ ∨ Column.make c.name col.relAlias = .ok d →
        s.indexOf d span = .ok i) ∧
    (∀ at₁ u, s.concat t at₁ = .ok u → u = s.beside t) ∧
    (∀ i, (s.beside t).indexOf c span = .ok i →
      i < s.size ∧ s.indexOf c span = .ok i ∨
        s.size ≤ i ∧ (c.isIndex = false → t.indexOf c span = .ok (i - s.size) ∧ s.Lacks c)) ∧
    (c.isIndex = false → ∀ i,
      (s.indexOf c span = .ok i → t.Lacks c → (s.beside t).indexOf c span = .ok i) ∧
      (t.indexOf c span = .ok i → s.Lacks c →
        (s.beside t).indexOf c span = .ok (s.size + i))) ∧
    ∀ (e : Expr) (type : Value),
      (e.Avoids t → e.typeIn s span = .ok type → e.typeIn (s.beside t) span = .ok type) ∧
      (e.Avoids s → e.typeIn t span = .ok type → e.typeIn (s.beside t) span = .ok type) := by
  refine ⟨fun i => lt_size_of_indexOf, ?qualified, fun at₁ u => eq_beside_of_concat,
    fun i => indexOf_of_beside,
    fun hname i => ⟨indexOf_beside_left hname, indexOf_beside_right hname⟩,
    fun e type => ⟨Expr.Avoids.typeIn_beside_left, Expr.Avoids.typeIn_beside_right⟩⟩
  rintro i col d hbare h hcol (rfl | hd)
  · exact indexOf_qualified hbare h hcol
  · exact indexOf_make hbare h hcol hd

namespace Sample

/-- The columns `R.a` and `R.b`. -/
def first : Schema :=
  ⟨[⟨.string "a", .string "R", .string "number"⟩, ⟨.string "b", .string "R", .string "string"⟩]⟩

/-- The columns `S.b` and `S.d`. -/
def second : Schema :=
  ⟨[⟨.string "b", .string "S", .string "string"⟩, ⟨.string "d", .string "S", .string "number"⟩]⟩

/-- A reference to the last column by its bare name. -/
def bare : Column :=
  ⟨.string "d", .null⟩

/-- The condition `d = 100`. -/
def condition : Expr :=
  .apply {} (.string "boolean") (.string "=") [.nested (.column {} bare), .literal (.int 100)]

/-- The name `d` denotes the second column of its schema, also as `S.d`, and the fourth one of both
schemas, where the condition on it keeps its type. -/
theorem resolution_stable_joined :
    second.indexOf bare none = .ok 1 ∧ first.Lacks bare ∧
      second.indexOf ⟨.string "d", .string "S"⟩ none = .ok 1 ∧
      ∃ u, first.concat second none = .ok u ∧ u.indexOf bare none = .ok 3 ∧ 3 < u.size ∧
        condition.typeIn u none = .ok (.string "boolean") := by
  have found : second.indexOf bare none = .ok 1 := rfl
  have lacks : first.Lacks bare := by decide
  obtain ⟨-, qualified, -⟩ := resolution_stable second first bare none
  refine ⟨found, lacks, qualified 1 _ _ rfl found rfl (.inl rfl), _, rfl, ?_⟩
  obtain ⟨-, -, concat, -, shifted, conditions⟩ := resolution_stable first second bare none
  rw [concat none _ rfl]
  have above : (first.beside second).indexOf bare none = .ok 3 := (shifted rfl 1).2 found lacks
  refine ⟨above, ?_, ?_⟩
  · exact (resolution_stable (first.beside second) first bare none).1 3 above
  · exact (conditions condition _).2 (by decide) rfl

end Sample

end Schema

end LogicalPlan
