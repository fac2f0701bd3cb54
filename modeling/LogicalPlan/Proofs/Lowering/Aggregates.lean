import LogicalPlan.Proofs.Derivation.Uniqueness
import LogicalPlan.Proofs.Lowering.SelectList
import LogicalPlan.Proofs.Lowering.Shape

/-!
# Aggregates in SELECT lists

The aggregates of a SELECT list are computed by the grouping of the statement, and the projection
above it refers to them by their bare names. Such a reference finds the column of its aggregate
exactly if no grouping column has that name.

## Implementation notes

Grouping columns keep their aliases, while the columns of aggregates have none. The check for unique
columns therefore tells the aggregates apart from each other, but not from grouping columns of the
same name, although a reference without an alias fits both.
-/

namespace LogicalPlan

open Outcome

/-! ### Schemas of groupings -/

theorem Aggregate.eq_of_columnIn {agg : Aggregate} {s : Schema} {span : Option SourceSpan}
    {col : SchemaColumn} (h : agg.columnIn s span = .ok col) :
    ∃ type, col = ⟨agg.name, .null, type⟩ := by
  unfold columnIn at h
  split at h
  · split at h
    · cases h
      exact ⟨_, rfl⟩
    · obtain ⟨source, -, h⟩ := bind_eq_ok.mp h
      cases h
      exact ⟨_, rfl⟩
  · cases h

/-- A grouping has one column for each grouping column and, after them, one for each aggregate. -/
theorem UnaryOp.exists_of_derive_groupBy {groups : List Column} {aggregates : List Aggregate}
    {s out : Schema} {span : Option SourceSpan}
    (h : (UnaryOp.groupBy groups aggregates).derive span s = .ok out) :
    ∃ grouped computed, out = ⟨grouped ++ computed⟩ ∧ grouped.length = groups.length ∧
      (∀ (k : Nat) (agg : Aggregate), aggregates[k]? = some agg →
        ∃ type, computed[k]? = some ⟨agg.name, .null, type⟩) ∧
      (∀ col ∈ computed, col.relAlias = .null) ∧ out.IsUnique := by
  obtain ⟨grouped, hgrouped, h⟩ := bind_eq_ok.mp h
  obtain ⟨computed, hcomputed, h⟩ := bind_eq_ok.mp h
  obtain ⟨_, hunique, h⟩ := bind_eq_ok.mp h
  cases h
  refine ⟨grouped, computed, rfl, (mapM_eq_ok.mp hgrouped).length_eq.symm, ?_, ?_,
    Schema.isUnique_of_assertUnique hunique⟩
  · intro k agg hagg
    obtain ⟨col, hcol, hcolumn⟩ := getElem?_of_mapM_eq_ok hcomputed hagg
    obtain ⟨type, rfl⟩ := Aggregate.eq_of_columnIn hcolumn
    exact ⟨type, hcol⟩
  · intro col hcol
    obtain ⟨agg, -, hcolumn⟩ := exists_of_mem_mapM hcomputed hcol
    obtain ⟨type, rfl⟩ := Aggregate.eq_of_columnIn hcolumn
    rfl

/-- The bare name of a column without alias finds no other column exactly if no qualified column in
front of it has that name: all others are unique. -/
theorem Column.findsOnly_bare {grouped computed : List SchemaColumn}
    (hunique : Schema.IsUnique ⟨grouped ++ computed⟩)
    (hbare : ∀ col ∈ computed, col.relAlias = .null)
    {i : Nat} {col : SchemaColumn} (hi : grouped.length ≤ i)
    (hcol : (grouped ++ computed)[i]? = some col) :
    (⟨col.name, .null⟩ : Column).FindsOnly (grouped ++ computed) i ↔
      match col.name.toInt? with
      | some j => j = i + 1
      | none => ∀ other ∈ grouped, col.name.same other.name = false := by
  have bare : col.relAlias = .null := by
    rw [List.getElem?_append_right hi] at hcol
    exact hbare col (List.mem_of_getElem? hcol)
  have accepts (other : SchemaColumn) :
      other.accepts ⟨col.name, .null⟩ = col.name.same other.name := rfl
  unfold FindsOnly
  simp only [accepts]
  cases col.name.toInt? with
  | some j => exact Iff.rfl
  | none =>
      constructor
      · intro honly other hother
        refine Bool.eq_false_iff.mpr fun hsame => ?_
        obtain ⟨j, hj, rfl⟩ := List.getElem_of_mem hother
        have found : (grouped ++ computed)[j]? = some grouped[j] := by
          rw [List.getElem?_append_left hj, List.getElem?_eq_getElem hj]
        obtain ⟨hj', hfound⟩ := List.getElem?_eq_some_iff.mp found
        have own : j = i := honly j hj' (hfound ▸ hsame)
        omega
      · intro hdiffer j hj hsame
        rcases List.mem_append.mp (List.getElem_mem hj) with hgrouped | hcomputed
        · rw [hdiffer _ hgrouped] at hsame
          cases hsame
        · refine hunique.eq_of_same_key (List.getElem?_eq_getElem hj) hcol ?_
          rw [SchemaColumn.same_key, hbare _ hcomputed, bare]
          exact Bool.and_eq_true_iff.mpr ⟨rfl, Value.same_symm hsame⟩

namespace Query

/-! ### Entries of SELECT lists -/

namespace SelectItem

/-- The aggregates of a list are numbered by the aggregates in front of them. -/
theorem getElem?_aggregateCalls {items : List SelectItem} {i : Nat} {call : AggregateCall}
    (h : items[i]? = some (.aggregate call)) :
    (aggregateCalls items)[(aggregateCalls (items.take i)).length]? = some call := by
  induction items generalizing i with
  | nil => cases h
  | cons item items ih =>
      cases i with
      | zero =>
          cases h
          rfl
      | succ i =>
          have rest := ih (i := i) h
          cases item with
          | aggregate other => exact rest
          | _ => exact rest

theorem isEverything_of_aggregateCalls {items : List SelectItem} (h : aggregateCalls items ≠ []) :
    isEverything items = false := by
  unfold isEverything
  split
  case h_1 item =>
    cases item with
    | aggregate call => rfl
    | _ => exact absurd rfl h
  case h_2 => rfl

end SelectItem

theorem AggregateCall.name_of_lower {call : AggregateCall} {agg : Aggregate}
    (h : call.lower = .ok agg) : agg.name = call.name := by
  obtain ⟨column, -, h⟩ := bind_eq_ok.mp h
  cases h
  rfl

/-- A stage keeps the plan before it or puts its operator over it. -/
theorem Applied.of_cons {stage : Stage} {stages : List Stage} {p q : Plan}
    (h : Applied (stage :: stages) p q) :
    ∃ plan, Applied stages plan q ∧
      (stage.operator = .ok none ∧ plan = p ∨
        ∃ op notes, stage.operator = .ok (some op) ∧ plan = .unary notes op p) := by
  cases h with
  | keep hmade rest => exact ⟨p, rest, .inl ⟨hmade, rfl⟩⟩
  | put hmade hspan rest => exact ⟨_, rest, .inr ⟨_, _, hmade, rfl⟩⟩

namespace Clauses

variable {clauses : Clauses} {origin : Origin} {settings : Settings}

/-- A statement with aggregates is grouped. -/
theorem eq_of_groupingOperator (hsome : SelectItem.aggregateCalls clauses.select.items ≠ [])
    {made : Option UnaryOp} (h : clauses.groupingOperator = .ok made) :
    ∃ groups aggregates, made = some (.groupBy groups aggregates) ∧
      (clauses.groupBy.getD []).mapM lowerColumn = .ok groups ∧
      (SelectItem.aggregateCalls clauses.select.items).mapM AggregateCall.lower =
        .ok aggregates := by
  obtain ⟨aggregates, haggregates, h⟩ := bind_eq_ok.mp h
  have hempty : aggregates.isEmpty = false := by
    rw [List.isEmpty_eq_false_iff, ← List.length_pos_iff, ← (mapM_eq_ok.mp haggregates).length_eq]
    exact List.length_pos_iff.mpr hsome
  obtain ⟨grouped, hgrouped, h⟩ := bind_eq_ok.mp h
  have : grouped = true := by
    unfold isGrouped at hgrouped
    split at hgrouped
    · exact (Except.ok.inj hgrouped).symm
    · obtain ⟨counted, -, hgrouped⟩ := bind_eq_ok.mp hgrouped
      rw [hempty] at hgrouped
      simpa using (Except.ok.inj hgrouped).symm
  rw [this, if_pos rfl] at h
  obtain ⟨groups, hgroups, h⟩ := bind_eq_ok.mp h
  rw [hempty] at h
  cases h
  exact ⟨groups, aggregates, rfl, hgroups, haggregates⟩

/-- A SELECT list with aggregates is projected. -/
theorem eq_of_selectOperator (hsome : SelectItem.aggregateCalls clauses.select.items ≠ [])
    {made : Option UnaryOp} (h : clauses.selectOperator = .ok made) :
    ∃ columns, made = some (.projection columns) ∧
      clauses.select.items.mapM SelectItem.lower = .ok columns := by
  unfold selectOperator at h
  rw [SelectItem.isEverything_of_aggregateCalls hsome, if_neg Bool.false_ne_true] at h
  obtain ⟨columns, hcolumns, rfl⟩ := map_eq_ok.mp h
  exact ⟨columns, rfl, hcolumns⟩

theorem eq_of_filterStage {clause : Option ConditionClause} {op : UnaryOp}
    (h : (filterStage clause).operator = .ok (some op)) :
    ∃ condition, op = .selection condition := by
  cases clause with
  | none => cases h
  | some clause =>
      obtain ⟨condition, -, h⟩ := map_eq_ok.mp h
      cases h
      exact ⟨condition, rfl⟩

/-- The plan of a statement with aggregates up to its projection: the projection refers to what a
grouping computes, possibly through the selection of a HAVING clause. -/
theorem exists_grouping (hsome : SelectItem.aggregateCalls clauses.select.items ≠ [])
    {source p : Plan} (h : clauses.selected origin settings source = .ok p) :
    ∃ columns groups aggregates grouping,
      (∃ notes below, p = .unary notes (.projection columns) below ∧
        (below = grouping ∨
          ∃ notes condition, below = .unary notes (.selection condition) grouping)) ∧
      (∃ notes input, grouping = .unary notes (.groupBy groups aggregates) input) ∧
      clauses.select.items.mapM SelectItem.lower = .ok columns ∧
      (clauses.groupBy.getD []).mapM lowerColumn = .ok groups ∧
      (SelectItem.aggregateCalls clauses.select.items).mapM AggregateCall.lower =
        .ok aggregates := by
  obtain ⟨_, -, h⟩ := bind_eq_ok.mp h
  obtain ⟨_, -, h⟩ := bind_eq_ok.mp h
  obtain ⟨filtered, h, -⟩ := (applied_of_foldlM h).of_cons
  obtain ⟨grouped, h, hgrouped⟩ := Applied.of_cons h
  obtain ⟨selected, h, hselected⟩ := Applied.of_cons h
  obtain ⟨projected, h, hprojected⟩ := Applied.of_cons h
  cases h
  rcases hgrouped with ⟨hmade, -⟩ | ⟨_, groupNotes, hmade, rfl⟩
  · obtain ⟨_, _, hop, -⟩ := eq_of_groupingOperator hsome hmade
    cases hop
  obtain ⟨groups, aggregates, ⟨⟩, hgroups, haggregates⟩ := eq_of_groupingOperator hsome hmade
  rcases hprojected with ⟨hmade, -⟩ | ⟨_, notes, hmade, rfl⟩
  · obtain ⟨_, hop, -⟩ := eq_of_selectOperator hsome hmade
    cases hop
  obtain ⟨columns, ⟨⟩, hcolumns⟩ := eq_of_selectOperator hsome hmade
  refine ⟨columns, groups, aggregates, _, ⟨notes, selected, rfl, ?_⟩, ⟨groupNotes, filtered, rfl⟩,
    hcolumns, hgroups, haggregates⟩
  rcases hselected with ⟨-, rfl⟩ | ⟨op, having, hmade, rfl⟩
  · exact .inl rfl
  · obtain ⟨condition, rfl⟩ := eq_of_filterStage hmade
    exact .inr ⟨having, condition, rfl⟩

/-- The projection of a statement refers to each of its aggregates by the bare name of the
aggregate. In the schema of the grouping, the columns of the aggregates follow the grouping columns
in the order of the SELECT list, and the reference denotes the column of its aggregate exactly if no
grouping column has that name. An integer as a name is read as a position. -/
theorem aggregates_found (hsome : SelectItem.aggregateCalls clauses.select.items ≠ [])
    {source p : Plan} (h : clauses.selected origin settings source = .ok p) :
    ∃ columns groups aggregates grouping,
      (∃ notes below, p = .unary notes (.projection columns) below ∧
        (below = grouping ∨
          ∃ notes condition, below = .unary notes (.selection condition) grouping)) ∧
      (∃ notes input, grouping = .unary notes (.groupBy groups aggregates) input) ∧
      (clauses.groupBy.getD []).mapM lowerColumn = .ok groups ∧
      (SelectItem.aggregateCalls clauses.select.items).mapM AggregateCall.lower = .ok aggregates ∧
      ∀ out, grouping.schema = .ok out →
        ∀ (i : Nat) (call : AggregateCall), clauses.select.items[i]? = some (.aggregate call) →
          let position :=
            groups.length + (SelectItem.aggregateCalls (clauses.select.items.take i)).length
          columns[i]? = some (.column ⟨call.name, .null⟩) ∧
          (∃ type, out.columns[position]? = some ⟨call.name, .null, type⟩) ∧
          ∀ span, out.indexOf ⟨call.name, .null⟩ span = .ok position ↔
            match call.name.toInt? with
            | some j => j = position + 1
            | none => ∀ col ∈ out.columns.take groups.length, call.name.same col.name = false := by
  obtain ⟨columns, groups, aggregates, grouping, hp, hgrouping, hcolumns, hgroups, haggregates⟩ :=
    exists_grouping hsome h
  refine ⟨columns, groups, aggregates, grouping, hp, hgrouping, hgroups, haggregates, ?_⟩
  intro out hout i call hcall position
  obtain ⟨notes, input, rfl⟩ := hgrouping
  obtain ⟨s, -, hout⟩ := bind_eq_ok.mp hout
  obtain ⟨grouped, computed, rfl, hlength, hcomputed, hbare, hunique⟩ :=
    UnaryOp.exists_of_derive_groupBy hout
  obtain ⟨agg, hagg, hlower⟩ := getElem?_of_mapM_eq_ok haggregates
    (SelectItem.getElem?_aggregateCalls hcall)
  obtain ⟨type, hcol⟩ := hcomputed _ agg hagg
  rw [AggregateCall.name_of_lower hlower] at hcol
  have found : (grouped ++ computed)[position]? = some ⟨call.name, .null, type⟩ := by
    rw [List.getElem?_append_right (by omega), ← hcol]
    congr 1
    omega
  refine ⟨?_, ⟨type, found⟩, fun span => ?_⟩
  · obtain ⟨entry, hentry, hlowered⟩ := getElem?_of_mapM_eq_ok hcolumns hcall
    obtain ⟨c, hc, rfl⟩ := map_eq_ok.mp hlowered
    rw [hentry, Column.eq_of_make hc]
    rfl
  · have accepted : SchemaColumn.accepts ⟨call.name, .null, type⟩ ⟨call.name, .null⟩ = true :=
      Value.same_iff.mpr rfl
    rw [Schema.indexOf_eq_ok_iff_findsOnly found fun _ => accepted, ← hlength, List.take_left]
    exact Column.findsOnly_bare hunique hbare (by omega) found

end Clauses

namespace Sample

/-- The clauses of a statement with the list `SUM(b) AS name` that is grouped by `a`. -/
def summed (name : String) : Clauses where
  select := ⟨origin, true,
    [.aggregate ⟨origin, .string "SUM", some ⟨origin, .string "b", .null⟩, .string name⟩]⟩
  filter := none
  groupBy := some [some ⟨origin, .string "a", .null⟩]
  having := none
  aggregateCount := .int 1

/-- The plan of the FROM clause of such a statement. -/
def base : Plan :=
  .relation {} { name := .string "R", schema := some ⟨[⟨.string "a", .string "R", .string "number"⟩,
    ⟨.string "b", .string "R", .string "number"⟩]⟩ }

/-- The plan of such a statement up to its grouping. -/
def grouping (name : String) : Plan :=
  .unary { span := origin.span } (.groupBy [⟨.string "a", .null⟩]
    [⟨.string "SUM", some ⟨.string "b", .null⟩, .string name⟩]) base

/-- Under the name `total`, the sum is found as the second column of the grouping by `a`. -/
theorem aggregates_found_total :
    ∃ out, (summed "total").selected origin {} base = .ok (.unary { span := origin.span }
        (.projection [.column ⟨.string "total", .null⟩]) (grouping "total")) ∧
      (grouping "total").schema = .ok out ∧
      out.indexOf ⟨.string "total", .null⟩ none = .ok 1 := by
  obtain ⟨_, _, _, _, ⟨_, _, hp, hbelow⟩, ⟨_, _, rfl⟩, hgroups, -, hfound⟩ :=
    @Clauses.aggregates_found (summed "total") origin {} (by decide) base
      (.unary { span := origin.span } (.projection [.column ⟨.string "total", .null⟩])
        (grouping "total")) rfl
  cases hp
  cases hgroups
  rcases hbelow with hbelow | ⟨_, _, hbelow⟩
  · cases hbelow
    have alone : ∀ col ∈ [SchemaColumn.mk (.string "a") (.string "R") (.string "number")],
        (Value.string "total").same col.name = false := by decide
    exact ⟨_, rfl, rfl, ((hfound _ rfl 0 _ rfl).2.2 none).mpr alone⟩
  · cases hbelow

/-- Under the name `a`, the sum shares its name with the grouping column: the columns of the
grouping are unique, but the reference of the projection fits both of them. -/
theorem aggregates_found_ambiguous :
    ∃ out params, (summed "a").selected origin {} base = .ok (.unary { span := origin.span }
        (.projection [.column ⟨.string "a", .null⟩]) (grouping "a")) ∧
      (grouping "a").schema = .ok out ∧
      out.columns = [⟨.string "a", .string "R", .string "number"⟩,
        ⟨.string "a", .null, .string "number"⟩] ∧
      out.indexOf ⟨.string "a", .null⟩ origin.span =
        .error (.query Message.columnAmbiguous params origin.span) :=
  ⟨_, _, rfl, rfl, rfl, rfl⟩

end Sample

end Query

end LogicalPlan
