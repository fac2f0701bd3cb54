import LogicalPlan.Proofs.Derivation.Placement

/-!
# Resolution of column references

A position resolves if it lies in the schema. A name resolves if exactly one column of the schema
accepts it. From this follows what a list of renamings makes of a schema in which each of them finds
a column of its own.
-/

namespace LogicalPlan

open Outcome

variable {c : Column} {span : Option SourceSpan}

/-! ### References -/

/-- Among the columns, a position stands for the given one, or a name is accepted by no other one.
-/
def Column.FindsOnly (c : Column) (columns : List SchemaColumn) (i : Nat) : Prop :=
  match c.name.toInt? with
  | some k => k = i + 1
  | none => ∀ (j : Nat) (hj : j < columns.length), columns[j].accepts c = true → j = i

instance (c : Column) (columns : List SchemaColumn) (i : Nat) : Decidable (c.FindsOnly columns i) :=
  match h : c.name.toInt? with
  | some k => decidable_of_iff (k = i + 1) (by simp [Column.FindsOnly, h])
  | none =>
    decidable_of_iff (∀ (j : Nat) (hj : j < columns.length), columns[j].accepts c = true → j = i)
      (by simp [Column.FindsOnly, h])

namespace Schema

theorem mem_candidates {columns : List SchemaColumn} {start i : Nat} :
    i ∈ candidates c start columns ↔
      ∃ j col, columns[j]? = some col ∧ i = start + j ∧ col.accepts c = true := by
  induction columns generalizing start with
  | nil => simp [candidates]
  | cons col cols ih =>
      have below : i ∈ candidates c (start + 1) cols ↔
          ∃ j col', (col :: cols)[j + 1]? = some col' ∧ i = start + (j + 1) ∧
            col'.accepts c = true := by
        simp only [ih, List.getElem?_cons_succ, Nat.add_right_comm start, Nat.add_assoc]
      constructor
      · intro h
        unfold candidates at h
        split at h
        case isTrue haccepts =>
          rcases List.mem_cons.mp h with rfl | h
          · exact ⟨0, col, rfl, rfl, haccepts⟩
          · obtain ⟨j, col', hj⟩ := below.mp h
            exact ⟨j + 1, col', hj⟩
        case isFalse =>
          obtain ⟨j, col', hj⟩ := below.mp h
          exact ⟨j + 1, col', hj⟩
      · rintro ⟨j, col', hcol, hi, haccepts⟩
        unfold candidates
        cases j with
        | zero =>
            cases hcol
            simp [haccepts, hi]
        | succ j =>
            have hbelow := below.mpr ⟨j, col', hcol, hi, haccepts⟩
            split
            · exact List.mem_cons_of_mem _ hbelow
            · exact hbelow

theorem nodup_candidates (columns : List SchemaColumn) (start : Nat) :
    (candidates c start columns).Nodup := by
  induction columns generalizing start with
  | nil => simp [candidates]
  | cons col cols ih =>
      unfold candidates
      split
      · refine List.nodup_cons.mpr ⟨fun hmem => ?_, ih _⟩
        obtain ⟨j, _, _, hj, _⟩ := mem_candidates.mp hmem
        omega
      · exact ih _

/-- A position denotes the column at it. -/
theorem indexOf_position {s : Schema} {k : Int} (hk : c.name.toInt? = some k) {i : Nat} :
    s.indexOf c span = .ok i ↔ i < s.size ∧ k = i + 1 := by
  simp only [indexOf, hk]
  split
  case isTrue hbounds =>
    simp only [Except.ok.injEq]
    omega
  case isFalse hbounds =>
    simp only [reduceCtorEq, false_iff]
    omega

/-- A name denotes the only candidate. -/
theorem indexOf_candidate {s : Schema} (hname : c.name.toInt? = none) {i : Nat} :
    s.indexOf c span = .ok i ↔ candidates c 0 s.columns = [i] := by
  simp only [indexOf, hname]
  cases candidates c 0 s.columns with
  | nil => simp
  | cons j rest => cases rest <;> simp

/-- A name denotes the only column that accepts it. -/
theorem indexOf_name {s : Schema} (hname : c.name.toInt? = none) {i : Nat} :
    s.indexOf c span = .ok i ↔
      ∃ col, s.columns[i]? = some col ∧ col.accepts c = true ∧
        ∀ j col', s.columns[j]? = some col' → col'.accepts c = true → j = i := by
  have unique : candidates c 0 s.columns = [i] ↔ ∀ j, j ∈ candidates c 0 s.columns ↔ j = i := by
    rw [← List.perm_singleton, List.perm_ext_iff_of_nodup (nodup_candidates _ _) (by simp)]
    simp
  have candidate (j : Nat) : j ∈ candidates c 0 s.columns ↔
      ∃ col, s.columns[j]? = some col ∧ col.accepts c = true := by
    simp [mem_candidates]
  rw [indexOf_candidate hname, unique]
  simp only [candidate]
  constructor
  · intro h
    obtain ⟨col, hcol, haccepts⟩ := (h i).mpr rfl
    exact ⟨col, hcol, haccepts, fun j col' hcol' haccepts' => (h j).mp ⟨col', hcol', haccepts'⟩⟩
  · rintro ⟨col, hcol, haccepts, hunique⟩ j
    constructor
    · rintro ⟨col', hcol', haccepts'⟩
      exact hunique j col' hcol' haccepts'
    · rintro rfl
      exact ⟨col, hcol, haccepts⟩

/-- What a reference denotes lies in the schema. -/
theorem lt_size_of_indexOf {s : Schema} {i : Nat} (h : s.indexOf c span = .ok i) : i < s.size := by
  cases hk : c.name.toInt? with
  | some k => exact ((indexOf_position hk).mp h).1
  | none =>
      obtain ⟨col, hcol, -⟩ := (indexOf_name hk).mp h
      exact (List.getElem?_eq_some_iff.mp hcol).1

/-- A reference that resolves to the column at a position denotes this position exactly if it finds
no other one. -/
theorem indexOf_eq_ok_iff_findsOnly {s : Schema} {i : Nat} {col : SchemaColumn}
    (hcol : s.columns[i]? = some col) (haccepts : c.name.toInt? = none → col.accepts c = true) :
    s.indexOf c span = .ok i ↔ c.FindsOnly s.columns i := by
  unfold Column.FindsOnly
  cases hk : c.name.toInt? with
  | some k =>
      have bound : i < s.size := (List.getElem?_eq_some_iff.mp hcol).1
      rw [indexOf_position hk]
      exact and_iff_right bound
  | none =>
      rw [indexOf_name hk]
      constructor
      · rintro ⟨_, -, -, hunique⟩ j hj
        exact hunique j _ (List.getElem?_eq_getElem hj)
      · intro hunique
        refine ⟨col, hcol, haccepts hk, fun j col' hcol' haccepts' => ?_⟩
        obtain ⟨hj, rfl⟩ := List.getElem?_eq_some_iff.mp hcol'
        exact hunique j hj haccepts'

/-- A reference resolves to the column at the position that it denotes. -/
theorem resolve_eq_ok {s : Schema} {col : SchemaColumn} :
    s.resolve c span = .ok col ↔ ∃ i, s.indexOf c span = .ok i ∧ s.columns[i]? = some col := by
  unfold resolve
  rw [bind_eq_ok]
  refine exists_congr fun i => and_congr_right fun _ => ?_
  cases s.columns[i]? with
  | none => simp
  | some col' => simp

theorem exists_resolve {s : Schema} {i : Nat} (h : s.indexOf c span = .ok i) :
    ∃ col, s.columns[i]? = some col ∧ s.resolve c span = .ok col := by
  have found := List.getElem?_eq_getElem (lt_size_of_indexOf h)
  exact ⟨_, found, resolve_eq_ok.mpr ⟨i, h, found⟩⟩

/-- A name resolves to a column that accepts it. -/
theorem accepts_of_resolve {s : Schema} (hname : c.name.toInt? = none) {col : SchemaColumn}
    (h : s.resolve c span = .ok col) : col.accepts c = true := by
  obtain ⟨i, hi, hcol⟩ := resolve_eq_ok.mp h
  obtain ⟨col', hcol', haccepts, -⟩ := (indexOf_name hname).mp hi
  rw [hcol] at hcol'
  cases hcol'
  exact haccepts

theorem uniqueAfter_eq_ok {text : String} {seen : List Value} {columns : List SchemaColumn}
    (hkeys : ∀ col ∈ columns, col.key.isHashable = true)
    (hseen : ∀ col ∈ columns, ∀ key ∈ seen, key.same col.key = false)
    (hpairs : columns.Pairwise fun a b => a.key.same b.key = false) :
    uniqueAfter text span seen columns = .ok () := by
  induction columns generalizing seen with
  | nil => rfl
  | cons col cols ih =>
      obtain ⟨hcol, hcols⟩ := List.pairwise_cons.mp hpairs
      have fresh : seen.any (·.same col.key) = false :=
        List.any_eq_false.mpr fun key hkey => by simp [hseen col (by simp) key hkey]
      simp only [uniqueAfter, hkeys col (by simp), Bool.not_true, Bool.false_eq_true, if_false,
        fresh]
      refine ih (fun col' hcol' => hkeys col' (by simp [hcol'])) (fun col' hcol' key hkey => ?_)
        hcols
      rcases List.mem_cons.mp hkey with rfl | hkey
      · exact hcol col' hcol'
      · exact hseen col' (by simp [hcol']) key hkey

/-- Columns whose keys differ are unique. -/
theorem assertUnique_eq_ok {s : Schema} (hkeys : ∀ col ∈ s.columns, col.key.isHashable = true)
    (hpairs : s.columns.Pairwise fun a b => a.key.same b.key = false) :
    s.assertUnique span = .ok () :=
  uniqueAfter_eq_ok hkeys nofun hpairs

end Schema

theorem SchemaColumn.same_key (a b : SchemaColumn) :
    a.key.same b.key = (a.relAlias.same b.relAlias && a.name.same b.name) := by
  simp [key, Value.same, Value.normal, Value.normalItems, Bool.decide_and]

/-! ### Renamings -/

/-- The column under its new name, if it gets one. -/
def SchemaColumn.renamedBy (r : Option Renaming) (col : SchemaColumn) : SchemaColumn :=
  match r with
  | none => col
  | some r => col.renamed r.newName

theorem modify_length_append (f : SchemaColumn → SchemaColumn) (before : List SchemaColumn)
    (col : SchemaColumn) (columns : List SchemaColumn) :
    (before ++ col :: columns).modify before.length f = before ++ f col :: columns := by
  induction before with
  | nil => rfl
  | cons b before ih => exact congrArg (b :: ·) ih

/-- Renamings that find the columns in whose places they stand rename just these columns. -/
theorem renamedColumns_aligned {s : Schema} {named : List (Option Renaming)}
    {before columns : List SchemaColumn} (hlength : named.length = columns.length)
    (hown : ∀ (j : Nat) (r : Renaming), named[j]? = some (some r) →
      s.indexOf r.column span = .ok (before.length + j)) :
    renamedColumns s span (named.filterMap id) (before ++ columns) =
      .ok (before ++ List.zipWith SchemaColumn.renamedBy named columns) := by
  induction named generalizing before columns with
  | nil =>
      obtain rfl : columns = [] := List.length_eq_zero_iff.mp hlength.symm
      rfl
  | cons r named ih =>
      obtain ⟨col, columns, rfl⟩ := List.exists_cons_of_length_eq_add_one hlength.symm
      have rest : renamedColumns s span (named.filterMap id)
          ((before ++ [col.renamedBy r]) ++ columns) =
            .ok ((before ++ [col.renamedBy r]) ++
              List.zipWith SchemaColumn.renamedBy named columns) := by
        apply ih (by simpa using hlength)
        intro j r' hr'
        have := hown (j + 1) r' hr'
        simpa [Nat.add_assoc, Nat.add_comm 1 j] using this
      cases r with
      | none => simpa [SchemaColumn.renamedBy] using rest
      | some r =>
          have found : s.indexOf r.column span = .ok before.length := hown 0 r rfl
          have kept : (some r :: named).filterMap id = r :: named.filterMap id := rfl
          rw [kept, renamedColumns, found, ok_bind, modify_length_append]
          simpa [SchemaColumn.renamedBy] using rest

end LogicalPlan
