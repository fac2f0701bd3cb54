import LogicalPlan.Proofs.Derivation.Joins

/-!
# Renamed columns

All references of a list of renamings are resolved in the schema of the input, so the renamings take
place at once: every column gets the new name of the last renaming that denotes it. Renamings of
different columns can be put in any order, and names can be exchanged.

## Implementation notes

The derivation goes through the list and changes the columns found so far. By
`renamedColumns_eq_ok_iff`, this amounts to the final name of each column, `Schema.finalName`; the
laws about the order of the list and about exchanged names are proved of final names only.
-/

namespace LogicalPlan

open Outcome
open scoped List

variable {span : Option SourceSpan} {s : Schema} {rs rs' : List Renaming}

/-! ### References -/

/-- The reference denotes the column at the position: it is this position, counted from one, or a
name that this column accepts and no other one does. -/
def Column.Denotes (c : Column) (s : Schema) (i : Nat) : Prop :=
  match c.name.toInt? with
  | some k => i < s.size ∧ k = i + 1
  | none => ∃ col, s.columns[i]? = some col ∧ col.accepts c = true ∧
      ∀ j col', s.columns[j]? = some col' → col'.accepts c = true → j = i

theorem Schema.indexOf_eq_ok_iff {c : Column} {i : Nat} :
    s.indexOf c span = .ok i ↔ c.Denotes s i := by
  rw [Column.Denotes]
  cases hk : c.name.toInt? with
  | some k => exact indexOf_position hk
  | none => exact indexOf_name hk

instance (c : Column) (s : Schema) (i : Nat) : Decidable (c.Denotes s i) :=
  decidable_of_iff (s.indexOf c none = .ok i) Schema.indexOf_eq_ok_iff

theorem Column.Denotes.eq {c : Column} {i j : Nat} (hi : c.Denotes s i) (hj : c.Denotes s j) :
    i = j := by
  rw [← @Schema.indexOf_eq_ok_iff none] at hi hj
  exact Except.ok.inj (hi.symm.trans hj)

namespace Schema

/-- The names of the columns differ. -/
def HasDistinctNames (s : Schema) : Prop :=
  s.names.Pairwise fun a b => a.same b = false

instance (s : Schema) : Decidable s.HasDistinctNames :=
  inferInstanceAs (Decidable (List.Pairwise _ _))

theorem HasDistinctNames.isUnique (h : s.HasDistinctNames) : s.IsUnique := by
  refine (List.pairwise_map.mp h).imp fun hname => ?_
  rw [SchemaColumn.same_key, hname, Bool.and_false]

/-- If names differ, each of them denotes its column, unless it is a position. -/
theorem HasDistinctNames.denotes (h : s.HasDistinctNames) {i : Nat} {col : SchemaColumn}
    (hcol : s.columns[i]? = some col) (hname : col.name.toInt? = none) :
    Column.Denotes ⟨col.name, .null⟩ s i := by
  have accepts (other : SchemaColumn) :
      other.accepts ⟨col.name, .null⟩ = true ↔ col.name.same other.name = true := by
    simp [SchemaColumn.accepts]
  simp only [Column.Denotes, hname, accepts]
  refine ⟨col, hcol, Value.same_iff.mpr rfl, fun j other hother hsame => ?_⟩
  obtain ⟨hi, rfl⟩ := List.getElem?_eq_some_iff.mp hcol
  obtain ⟨hj, rfl⟩ := List.getElem?_eq_some_iff.mp hother
  have differ := List.pairwise_iff_getElem.mp (List.pairwise_map.mp h)
  rcases Nat.lt_trichotomy i j with hlt | heq | hgt
  · rw [differ i j hi hj hlt] at hsame
    cases hsame
  · exact heq.symm
  · have hsame' := Value.same_symm hsame
    rw [differ j i hj hi hgt] at hsame'
    cases hsame'

/-! ### Final names -/

/-- The name that the column at a position has after all renamings: the new name of the last one
that denotes the column, or the given name if none does. -/
def finalName (s : Schema) (rs : List Renaming) (i : Nat) (name : Value) : Value :=
  (((rs.filter fun r => decide (r.column.Denotes s i)).getLast?).map Renaming.newName).getD name

/-- The schema after all renamings. -/
def relabelled (s : Schema) (rs : List Renaming) : Schema :=
  ⟨s.columns.mapIdx fun i col => col.renamed (s.finalName rs i col.name)⟩

/-- No two of the renamings denote the same column. -/
def AreApart (s : Schema) (rs : List Renaming) : Prop :=
  rs.Pairwise fun r r' => ∀ i, r.column.Denotes s i → ¬ r'.column.Denotes s i

theorem finalName_cons (r : Renaming) (rs : List Renaming) (i : Nat) (name : Value) :
    s.finalName (r :: rs) i name =
      s.finalName rs i (if r.column.Denotes s i then r.newName else name) := by
  unfold finalName
  by_cases h : r.column.Denotes s i
  · rw [List.filter_cons_of_pos (by simpa using h), if_pos h, List.getLast?_cons]
    cases (rs.filter fun r => decide (r.column.Denotes s i)).getLast? <;> rfl
  · rw [List.filter_cons_of_neg (by simpa using h), if_neg h]

theorem mapIdx_finalName_nil (s : Schema) (columns : List SchemaColumn) :
    columns.mapIdx (fun i col => col.renamed (s.finalName [] i col.name)) = columns := by
  ext i : 1
  rw [List.getElem?_mapIdx]
  cases columns[i]? <;> rfl

/-- The first renaming can take place in front of the others. -/
theorem mapIdx_finalName_cons {r : Renaming} {i : Nat} (hi : r.column.Denotes s i)
    (rs : List Renaming) (columns : List SchemaColumn) :
    columns.mapIdx (fun j col => col.renamed (s.finalName (r :: rs) j col.name)) =
      (columns.modify i (·.renamed r.newName)).mapIdx fun j col =>
        col.renamed (s.finalName rs j col.name) := by
  ext j : 1
  have denotes : r.column.Denotes s j ↔ i = j := ⟨hi.eq, fun h => h ▸ hi⟩
  simp only [List.getElem?_mapIdx, List.getElem?_modify, finalName_cons, denotes]
  cases columns[j]? with
  | none => rfl
  | some col => by_cases hij : i = j <;> simp [hij, SchemaColumn.renamed]

/-- At most one of the renamings gives a column its name, so their order does not matter. -/
theorem finalName_perm (h : rs.Perm rs') (hapart : s.AreApart rs) (i : Nat) (name : Value) :
    s.finalName rs i name = s.finalName rs' i name := by
  have chosen := h.filter fun r => decide (r.column.Denotes s i)
  have single := hapart.filter fun r => decide (r.column.Denotes s i)
  have denotes : ∀ r ∈ rs.filter fun r => decide (r.column.Denotes s i), r.column.Denotes s i :=
    fun r hr => of_decide_eq_true (List.mem_filter.mp hr).2
  unfold finalName
  generalize rs.filter (fun r => decide (r.column.Denotes s i)) = found at chosen single denotes ⊢
  match found with
  | [] => rw [chosen.nil_eq]
  | [r] => rw [List.singleton_perm.mp chosen]
  | r :: r' :: rest =>
      have differ := (List.pairwise_cons.mp single).1 r' (by simp) i (denotes r (by simp))
      exact absurd (denotes r' (by simp)) differ

theorem relabelled_perm (h : rs.Perm rs') (hapart : s.AreApart rs) :
    s.relabelled rs = s.relabelled rs' := by
  simp only [relabelled, finalName_perm h hapart]

/-- A renamed column gives its name away and gets the new one. -/
theorem names_modify_perm {columns : List SchemaColumn} {i : Nat} {col : SchemaColumn}
    (hcol : columns[i]? = some col) (name : Value) :
    (col.name :: (columns.modify i (·.renamed name)).map (·.name)).Perm
      (name :: columns.map (·.name)) := by
  obtain ⟨hi, rfl⟩ := List.getElem?_eq_some_iff.mp hcol
  have found : i < (columns.map (·.name)).length := by simpa using hi
  have written : (columns.modify i (·.renamed name)).map (·.name) =
      (columns.map (·.name)).set i name := by
    ext j : 1
    by_cases hij : i = j
    · subst hij
      simp [hi, SchemaColumn.renamed]
    · simp [hij]
  rw [written]
  calc columns[i].name :: (columns.map (·.name)).set i name
      ~ columns[i].name :: name :: (columns.map (·.name)).eraseIdx i :=
        (List.set_perm_cons_eraseIdx found name).cons _
    _ ~ name :: columns[i].name :: (columns.map (·.name)).eraseIdx i := .swap _ _ _
    _ = name :: (columns.map (·.name))[i] :: (columns.map (·.name)).eraseIdx i := by
        rw [List.getElem_map]
    _ ~ name :: columns.map (·.name) := (List.getElem_cons_eraseIdx_perm found).cons _

/-- Renamings of different columns give the names of these columns away and get the new ones. -/
theorem names_mapIdx_finalName_perm {olds : List Value} {columns : List SchemaColumn}
    (hapart : s.AreApart rs)
    (h : List.Forall₂ (fun r old => ∃ i col, r.column.Denotes s i ∧ columns[i]? = some col ∧
      col.name = old) rs olds) :
    (olds ++
        (columns.mapIdx fun i col => col.renamed (s.finalName rs i col.name)).map (·.name)).Perm
      (rs.map Renaming.newName ++ columns.map (·.name)) := by
  induction rs generalizing olds columns with
  | nil =>
      cases h
      rw [mapIdx_finalName_nil]
      exact .refl _
  | cons r rs ih =>
      obtain ⟨old, olds, ⟨i, col, hi, hcol, rfl⟩, hrs, rfl⟩ := List.forall₂_cons_left_iff.mp h
      obtain ⟨hr, hapart⟩ := List.pairwise_cons.mp hapart
      have kept : List.Forall₂ (fun r' old => ∃ j col', r'.column.Denotes s j ∧
          (columns.modify i (·.renamed r.newName))[j]? = some col' ∧ col'.name = old) rs olds := by
        refine ((List.forall₂_and_left _ _).mpr ⟨hr, hrs⟩).imp ?_
        rintro r' _ ⟨differ, j, col', hj, hcol', rfl⟩
        have hij : i ≠ j := fun heq => differ i hi (heq ▸ hj)
        exact ⟨j, col', hj, by simpa [hij] using hcol', rfl⟩
      rw [mapIdx_finalName_cons hi]
      calc col.name :: olds ++ ((columns.modify i (·.renamed r.newName)).mapIdx fun j col =>
            col.renamed (s.finalName rs j col.name)).map (·.name)
          ~ col.name :: (rs.map Renaming.newName ++
              (columns.modify i (·.renamed r.newName)).map (·.name)) := (ih hapart kept).cons _
        _ ~ rs.map Renaming.newName ++
              col.name :: (columns.modify i (·.renamed r.newName)).map (·.name) :=
            List.perm_middle.symm
        _ ~ rs.map Renaming.newName ++ r.newName :: columns.map (·.name) :=
            (names_modify_perm hcol r.newName).append_left _
        _ ~ r.newName :: rs.map Renaming.newName ++ columns.map (·.name) := List.perm_middle

/-- If the new names are the old ones in some order, so are those of the schema. -/
theorem names_relabelled_perm {olds : List Value} (hapart : s.AreApart rs)
    (h : List.Forall₂ (fun r old => ∃ i col, r.column.Denotes s i ∧ s.columns[i]? = some col ∧
      col.name = old) rs olds) (hperm : (rs.map Renaming.newName).Perm olds) :
    (s.relabelled rs).names.Perm s.names := by
  apply (List.perm_append_left_iff olds).mp
  exact (names_mapIdx_finalName_perm hapart h).trans (hperm.append_right _)

theorem AreApart.perm (hapart : s.AreApart rs) (h : rs.Perm rs') : s.AreApart rs' :=
  h.pairwise hapart fun differ i hi' hi => differ i hi hi'

theorem HasDistinctNames.perm {t : Schema} (h : s.HasDistinctNames) (hperm : t.names.Perm s.names) :
    t.HasDistinctNames := by
  refine hperm.symm.pairwise h fun {a b} hab => ?_
  rw [← hab]
  exact Bool.eq_iff_iff.mpr ⟨Value.same_symm, Value.same_symm⟩

theorem IsKeyed.relabelled (hs : s.IsKeyed) (hnames : ∀ r ∈ rs, r.newName.isHashable = true) :
    (s.relabelled rs).IsKeyed := by
  intro col hcol
  obtain ⟨i, hi, rfl⟩ := List.mem_mapIdx.mp hcol
  obtain ⟨hname, halias⟩ := hs _ (List.getElem_mem hi)
  refine ⟨?_, halias⟩
  show (s.finalName rs i s.columns[i].name).isHashable = true
  unfold finalName
  cases hlast : (rs.filter fun r => decide (r.column.Denotes s i)).getLast? with
  | none => exact hname
  | some r => exact hnames r (List.mem_of_mem_filter (List.mem_of_getLast? hlast))

end Schema

/-- The loop over the renamings ends with the final names, provided that all references denote
columns. -/
theorem renamedColumns_eq_ok_iff {columns out : List SchemaColumn} :
    renamedColumns s span rs columns = .ok out ↔
      (∀ r ∈ rs, ∃ i, r.column.Denotes s i) ∧
        out = columns.mapIdx fun i col => col.renamed (s.finalName rs i col.name) := by
  induction rs generalizing columns with
  | nil => simp [renamedColumns, Schema.mapIdx_finalName_nil, eq_comm]
  | cons r rs ih =>
      simp only [renamedColumns, bind_eq_ok, Schema.indexOf_eq_ok_iff, ih, List.forall_mem_cons]
      constructor
      · rintro ⟨i, hi, hrs, rfl⟩
        exact ⟨⟨⟨i, hi⟩, hrs⟩, (Schema.mapIdx_finalName_cons hi rs columns).symm⟩
      · rintro ⟨⟨⟨i, hi⟩, hrs⟩, rfl⟩
        exact ⟨i, hi, hrs, Schema.mapIdx_finalName_cons hi rs columns⟩

/-- The derivation yields the schema after all renamings, provided that all references denote
columns and that this schema passes the check. -/
theorem UnaryOp.derive_renameColumns_eq_ok_iff {t : Schema} :
    (UnaryOp.renameColumns rs).derive span s = .ok t ↔
      (∀ r ∈ rs, ∃ i, r.column.Denotes s i) ∧ t = s.relabelled rs ∧ t.IsKeyed ∧ t.IsUnique := by
  simp only [derive, bind_eq_ok, renamedColumns_eq_ok_iff]
  constructor
  · rintro ⟨_, ⟨hrs, rfl⟩, _, hchecked, ⟨⟩⟩
    exact ⟨hrs, rfl, Schema.assertUnique_eq_ok_iff.mp hchecked⟩
  · rintro ⟨hrs, rfl, hchecked⟩
    exact ⟨_, ⟨hrs, rfl⟩, (), Schema.assertUnique_eq_ok_iff.mpr hchecked, rfl⟩

namespace Plan

variable {notes : Notes} {input : Plan}

theorem schema_renameColumns_eq_ok_iff (hs : input.schema = .ok s) {t : Schema} :
    (unary notes (.renameColumns rs) input).schema = .ok t ↔
      (∀ r ∈ rs, ∃ i, r.column.Denotes s i) ∧ t = s.relabelled rs ∧ t.IsKeyed ∧ t.IsUnique := by
  rw [schema, hs, ok_bind, UnaryOp.derive_renameColumns_eq_ok_iff]

theorem schema_renameColumns_perm (hs : input.schema = .ok s) (hapart : s.AreApart rs)
    (h : rs.Perm rs') {t : Schema} :
    (unary notes (.renameColumns rs) input).schema = .ok t ↔
      (unary notes (.renameColumns rs') input).schema = .ok t := by
  rw [schema_renameColumns_eq_ok_iff hs, schema_renameColumns_eq_ok_iff hs,
    Schema.relabelled_perm h hapart]
  simp only [h.mem_iff]

/-- Renaming columns takes place at once. It fails exactly if a reference does not denote a column
of the input or the renamed columns are not unique; otherwise each column keeps its alias and its
type and gets the new name of the last renaming that denotes it. Renamings of different columns can
be put in any order, and where names differ they can be exchanged in any way, by their bare names
too. -/
theorem renameColumns_simultaneous (hs : input.schema = .ok s) (hkeys : s.IsKeyed)
    (hnames : ∀ r ∈ rs, r.newName.isHashable = true) :
    ((∃ fault, (unary notes (.renameColumns rs) input).schema = .error fault) ↔
      (∃ r ∈ rs, ∀ i, ¬ r.column.Denotes s i) ∨ ¬ (s.relabelled rs).IsUnique) ∧
    (∀ t, (unary notes (.renameColumns rs) input).schema = .ok t →
      t.size = s.size ∧ ∀ (i : Nat) (col : SchemaColumn), s.columns[i]? = some col →
        t.columns[i]? = some (col.renamed (s.finalName rs i col.name))) ∧
    (s.AreApart rs →
      (∀ rs', rs.Perm rs' → ∀ t,
        (unary notes (.renameColumns rs) input).schema = .ok t ↔
          (unary notes (.renameColumns rs') input).schema = .ok t) ∧
      (s.HasDistinctNames → ∀ olds,
        List.Forall₂ (fun r old => ∃ i col, r.column.Denotes s i ∧ s.columns[i]? = some col ∧
          col.name = old) rs olds →
        (rs.map Renaming.newName).Perm olds →
          ∃ t, (unary notes (.renameColumns rs) input).schema = .ok t ∧ t.names.Perm s.names)) ∧
    (s.HasDistinctNames → ∀ (i : Nat) (col : SchemaColumn), s.columns[i]? = some col →
      col.name.toInt? = none → Column.Denotes ⟨col.name, .null⟩ s i) := by
  have outcome (t : Schema) : (unary notes (.renameColumns rs) input).schema = .ok t ↔
      (∀ r ∈ rs, ∃ i, r.column.Denotes s i) ∧ t = s.relabelled rs ∧ t.IsKeyed ∧ t.IsUnique :=
    schema_renameColumns_eq_ok_iff hs
  have keyed : (s.relabelled rs).IsKeyed := hkeys.relabelled hnames
  refine ⟨?fails, ?columns, fun hapart => ⟨fun rs' h t => schema_renameColumns_perm hs hapart h,
    ?exchanged⟩, fun hdistinct i col => hdistinct.denotes⟩
  case fails =>
    rw [← not_iff_not]
    calc (¬ ∃ fault, (unary notes (.renameColumns rs) input).schema = .error fault)
        ↔ ∃ t, (unary notes (.renameColumns rs) input).schema = .ok t := by
          cases (unary notes (.renameColumns rs) input).schema <;> simp
      _ ↔ (∀ r ∈ rs, ∃ i, r.column.Denotes s i) ∧ (s.relabelled rs).IsUnique := by
          simp only [outcome]
          constructor
          · rintro ⟨_, hrs, rfl, _, hunique⟩
            exact ⟨hrs, hunique⟩
          · rintro ⟨hrs, hunique⟩
            exact ⟨_, hrs, rfl, keyed, hunique⟩
      _ ↔ ¬ ((∃ r ∈ rs, ∀ i, ¬ r.column.Denotes s i) ∨ ¬ (s.relabelled rs).IsUnique) := by
          push Not
          rfl
  case columns =>
    intro t ht
    obtain ⟨_, rfl, _⟩ := (outcome t).mp ht
    constructor
    · exact List.length_mapIdx
    · intro i col hcol
      simp [Schema.relabelled, hcol]
  case exchanged =>
    intro hdistinct olds holds hperm
    have names := Schema.names_relabelled_perm hapart holds hperm
    refine ⟨_, (outcome _).mpr ⟨?_, rfl, keyed, (hdistinct.perm names).isUnique⟩, names⟩
    have denoting : List.Forall₂ (fun r _ => (∃ i, r.column.Denotes s i) ∧ True) rs olds :=
      holds.imp fun r _ ⟨i, _, hi, _⟩ => ⟨⟨i, hi⟩, trivial⟩
    exact ((List.forall₂_and_left _ _).mp denoting).1

namespace Sample

/-- The columns of the pairs, `R.a` and `S.b`. -/
def pairedColumns : Schema :=
  ⟨[⟨.string "a", .string "R", .string "number"⟩, ⟨.string "b", .string "S", .string "number"⟩]⟩

/-- Renamings that exchange the names of these columns. The second column is denoted by its
position. -/
def exchange : List Renaming :=
  [⟨.string "b", ⟨.string "a", .null⟩⟩, ⟨.string "a", ⟨.int 2, .null⟩⟩]

/-- Two columns exchange their names, in either order of the list. -/
theorem renameColumns_exchanged :
    paired.schema = .ok pairedColumns ∧
      ∃ t : Schema, (unary {} (.renameColumns exchange) paired).schema = .ok t ∧
        (unary {} (.renameColumns exchange.reverse) paired).schema = .ok t ∧
        t.names.Perm pairedColumns.names ∧
        t.columns[0]? = some ⟨.string "b", .string "R", .string "number"⟩ := by
  have derived : paired.schema = .ok pairedColumns := rfl
  obtain ⟨-, columns, apart, -⟩ := @renameColumns_simultaneous _ exchange {} paired derived
    (by decide) (by decide)
  have different : pairedColumns.AreApart exchange := by
    refine List.pairwise_pair.mpr fun i first second => ?_
    have one : i = 0 := first.eq (by decide)
    have two : i = 1 := second.eq (by decide)
    omega
  obtain ⟨order, exchanged⟩ := apart different
  obtain ⟨t, ht, names⟩ := exchanged (by decide) [.string "a", .string "b"]
    (.cons ⟨0, _, by decide, rfl, rfl⟩ (.cons ⟨1, _, by decide, rfl, rfl⟩ .nil)) (by decide)
  obtain ⟨-, column⟩ := columns t ht
  refine ⟨derived, t, ht, (order _ exchange.reverse_perm.symm t).mp ht, names, ?_⟩
  rw [column 0 _ rfl]
  decide

end Sample

end Plan

end LogicalPlan
