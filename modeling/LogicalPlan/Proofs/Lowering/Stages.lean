import LogicalPlan.Lowering.Sql
import LogicalPlan.Proofs.Outcome

/-!
# Stages of a lowering

The plan of a statement grows over the plan of its FROM clause in five stages: WHERE, grouping,
HAVING, SELECT list, new names. A stage puts at most one operator over the plan that it gets.
`Clauses.result_lower` shows that a statement is lowered by running its stages in order, and
`SqlUnary.result_lower`, `SqlBinary.result_lower` and their counterparts for relational algebra
split the lowering of every other node into the making of one operator and the lowering of its
inputs.

## Implementation notes

The operator of a stage does not depend on the plan below it. What a stage does to a plan is
therefore proved once, for `Stage.run`, and holds of all clauses of all statements.
-/

namespace LogicalPlan

open Outcome

namespace Plan

variable {wanted : Bool} {p q : Plan}

/-- Verification gives no other plan, and it succeeds if positions are complete or not asked for. -/
theorem verifiedIf_eq_ok :
    p.verifiedIf wanted = .ok q ↔ (wanted = true → p.verifyPositions = .ok ()) ∧ p = q := by
  unfold verifiedIf
  cases wanted with
  | false => simp
  | true =>
      rw [if_pos rfl, bind_eq_ok]
      constructor
      · rintro ⟨_, h, hpq⟩
        exact ⟨fun _ => h, Except.ok.inj hpq⟩
      · rintro ⟨h, rfl⟩
        exact ⟨(), h rfl, rfl⟩

theorem eq_of_verifiedIf (h : p.verifiedIf wanted = .ok q) : p = q :=
  (verifiedIf_eq_ok.mp h).2

end Plan

namespace Query

/-- What reporting a plan in the log makes of a lowering: its label has to exist. -/
def logged (settings : Settings) (p : Plan) : Outcome Unit :=
  if settings.verbose then discard p.label else .ok ()

@[simp] theorem result_report (settings : Settings) (what : String) (p : Plan) :
    (report settings what p).result = logged settings p := by
  unfold report logged Traced.write
  cases settings.verbose with
  | false => rfl
  | true => cases p.label <;> rfl

/-- A part of a statement that puts at most one operator over a plan. -/
structure Stage where
  /-- What the position of the operator is asked from. -/
  kind : String
  origin : Origin
  /-- The schema of the plan below is checked first, if schemas are to be checked. -/
  checked : Bool
  operator : Outcome (Option UnaryOp)

/-- The check of the plan below a stage, if the stage asks for it. -/
def Stage.check (settings : Settings) (p : Plan) (stage : Stage) : Outcome Unit :=
  if stage.checked then checkIf settings p else .ok ()

/-- The plan after a stage. -/
def Stage.run (settings : Settings) (p : Plan) (stage : Stage) : Outcome Plan := do
  stage.check settings p
  match ← stage.operator with
  | none => .ok p
  | some op =>
    let plan ← (Plan.unary {} op p).annotate stage.kind stage.origin [] none
    logged settings plan
    .ok plan

theorem Stage.check_eq_ok {settings : Settings} (hcheck : settings.checkSchemas = false)
    (stage : Stage) (p : Plan) : stage.check settings p = .ok () := by
  unfold Stage.check checkIf
  rw [hcheck]
  split <;> rfl

theorem Stage.exists_operator {settings : Settings} {stage : Stage} {p q : Plan}
    (h : stage.run settings p = .ok q) : ∃ made, stage.operator = .ok made := by
  obtain ⟨_, -, h⟩ := bind_eq_ok.mp h
  obtain ⟨made, hmade, -⟩ := bind_eq_ok.mp h
  exact ⟨made, hmade⟩

/-- Without checks, a stage that makes no operator keeps the plan. -/
theorem Stage.run_eq_ok {settings : Settings} (hcheck : settings.checkSchemas = false)
    {stage : Stage} (h : stage.operator = .ok none) (p : Plan) : stage.run settings p = .ok p := by
  simp only [Stage.run, stage.check_eq_ok hcheck, h, ok_bind]

namespace Clauses

/-- The stage of a WHERE or HAVING clause. -/
def filterStage : Option ConditionClause → Stage
  | none => ⟨"ConditionClause", {}, false, .ok none⟩
  | some clause =>
    ⟨"ConditionClause", clause.origin, true,
      clause.condition.lower.map fun condition => some (.selection condition)⟩

/-- The operator that groups the rows of a statement, if it groups them. -/
def groupingOperator (clauses : Clauses) : Outcome (Option UnaryOp) := do
  let aggregates ← (SelectItem.aggregateCalls clauses.select.items).mapM AggregateCall.lower
  if ← clauses.isGrouped aggregates then
    let groups ← (clauses.groupBy.getD []).mapM lowerColumn
    .ok (some (if aggregates.isEmpty then .projection (groups.map ProjectionItem.column)
      else .groupBy groups aggregates))
  else .ok none

/-- The operator that computes the SELECT list, unless the list keeps everything. -/
def selectOperator (clauses : Clauses) : Outcome (Option UnaryOp) :=
  if SelectItem.isEverything clauses.select.items then .ok none
  else (clauses.select.items.mapM SelectItem.lower).map fun columns => some (.projection columns)

/-- The operator that gives new names, if some entry of the SELECT list has one. -/
def namingOperator (clauses : Clauses) : Outcome (Option UnaryOp) := do
  let renamings ← clauses.select.items.mapM SelectItem.newName
  match renamings.filterMap id with
  | [] => .ok none
  | renamings => .ok (some (.renameColumns renamings))

/-- The stages of a statement in the order of their evaluation. -/
def stages (clauses : Clauses) (origin : Origin) : List Stage :=
  [filterStage clauses.filter, ⟨"Statement", origin, false, clauses.groupingOperator⟩,
    filterStage clauses.having,
    ⟨"SelectClause", clauses.select.origin, false, clauses.selectOperator⟩,
    ⟨"SelectClause", clauses.select.origin, false, clauses.namingOperator⟩]

theorem result_filtered (settings : Settings) (what : String) (clause : Option ConditionClause)
    (p : Plan) :
    (filtered settings what clause p).result = (filterStage clause).run settings p := by
  cases clause with
  | none => rfl
  | some clause =>
      simp only [filtered, Traced.result_bind, Traced.result_lift, Traced.result_pure,
        result_report, ConditionClause.lower, Stage.run, Stage.check, filterStage, map_eq_bind,
        bind_assoc, ok_bind, if_true]

theorem result_grouped (clauses : Clauses) (origin : Origin) (settings : Settings) (p : Plan) :
    (clauses.grouped origin settings p).result =
      Stage.run settings p ⟨"Statement", origin, false, clauses.groupingOperator⟩ := by
  simp only [grouped, groupingOperator, Stage.run, Stage.check, Traced.result_bind,
    Traced.result_lift, Traced.result_ofOutcome, bind_assoc, Bool.false_eq_true, if_false, ok_bind]
  congr! 4 with aggregates isGrouped
  cases isGrouped with
  | false => rfl
  | true =>
      simp only [if_true, bind_assoc, ok_bind, Traced.result_bind, Traced.result_lift,
        Traced.result_ofOutcome, Traced.result_pure, result_report]

theorem result_projected (clauses : Clauses) (settings : Settings) (p : Plan) :
    (clauses.projected settings p).result =
      Stage.run settings p
        ⟨"SelectClause", clauses.select.origin, false, clauses.selectOperator⟩ := by
  unfold projected selectOperator Stage.run Stage.check
  cases h : SelectItem.isEverything clauses.select.items with
  | true =>
      cases hv : settings.verbose <;> simp [Traced.write, LogEntry.ofParts]
  | false =>
      simp [map_eq_bind]

theorem result_relabelled (clauses : Clauses) (settings : Settings) (p : Plan) :
    (clauses.relabelled settings p).result =
      Stage.run settings p
        ⟨"SelectClause", clauses.select.origin, false, clauses.namingOperator⟩ := by
  simp only [relabelled, namingOperator, Stage.run, Stage.check, Traced.result_bind,
    Traced.result_ofOutcome, bind_assoc, Bool.false_eq_true, if_false, ok_bind]
  congr! 2 with renamings
  cases renamings.filterMap id with
  | nil => rfl
  | cons r rs =>
      simp only [ok_bind, Traced.result_bind, Traced.result_lift, Traced.result_pure, result_report]

/-- A statement is lowered by running its stages over the plan of its FROM clause. -/
theorem result_lower (clauses : Clauses) (origin : Origin) (settings : Settings) (source : Plan) :
    (clauses.lower origin settings source).result = (do
      checkIf settings source
      logged settings source
      let plan ← (clauses.stages origin).foldlM (Stage.run settings) source
      .ok (if clauses.select.distinct then plan
        else plan.warn Message.distinctMissing origin.span)) := by
  simp only [lower, stages, Traced.result_bind, Traced.result_lift, Traced.result_pure,
    result_report, result_filtered, result_grouped, result_projected, result_relabelled,
    List.foldlM_cons, List.foldlM_nil, bind_assoc, pure_bind]

end Clauses

/-- What reporting the condition of a limit in the log makes of a lowering. -/
def loggedCondition (verbose : Bool) (condition : Expr) : Outcome Unit :=
  if verbose then discard condition.text else .ok ()

theorem result_write_condition (verbose : Bool) (shown offset : String) (condition : Expr) :
    (Traced.write verbose [.ok "Lowering LIMIT", .ok shown, .ok "OFFSET", .ok offset, .ok "to",
      condition.text]).result = loggedCondition verbose condition := by
  unfold Traced.write loggedCondition
  cases verbose with
  | false => rfl
  | true => cases condition.text <;> rfl

/-- The operator that a unary SQL node puts over its input. -/
def SqlUnary.operator (origin : Origin) (verbose : Bool) : SqlUnary → Outcome UnaryOp
  | .renameRelation relAlias | .subquery relAlias => .ok (.renameRelation relAlias)
  | .orderBy entries => (lowerOrder entries).map UnaryOp.orderBy
  | .limit count offset => do
    let span ← origin.require "Limit"
    let condition ← limitCondition count offset (some span)
    loggedCondition verbose condition
    .ok (.selection condition)

/-- The operator that a binary SQL node puts over its inputs. -/
def SqlBinary.operator : SqlBinary → Outcome BinaryOp
  | .join kind qualifier => qualifier.lower.map (BinaryOp.join kind)
  | .cross => .ok .cross
  | .natural => .ok (.join .inner (.natural none))
  | .set operation _ => .ok operation.op

/-- What a binary SQL node notes at its operator. -/
def SqlBinary.notes (origin : Origin) : SqlBinary → Notes
  | .set _ true => { warnings := [⟨Message.allIgnored, origin.span, []⟩] }
  | _ => {}

/-- The operator that a unary algebra node puts over its input. -/
def AlgebraUnary.operator : AlgebraUnary → Outcome UnaryOp
  | .selection condition => condition.lower.map UnaryOp.selection
  | .projection entries => (entries.mapM ProjectionEntry.lower).map UnaryOp.projection
  | .orderBy entries => (lowerOrder entries).map UnaryOp.orderBy
  | .groupBy groups aggregates => do
    let aggregates ← aggregates.mapM AggregateCall.lower
    let groups ← groups.mapM lowerColumn
    .ok (.groupBy groups aggregates)
  | .renameColumns renamings => (renamings.mapM ColumnRenaming.lower).map UnaryOp.renameColumns
  | .renameRelation relAlias => .ok (.renameRelation relAlias)

/-- The operator that a binary algebra node puts over its inputs. -/
def AlgebraBinary.operator : AlgebraBinary → Outcome BinaryOp
  | .union => .ok .union
  | .intersect => .ok .intersect
  | .difference => .ok .difference
  | .division => .ok .division
  | .theta condition => condition.lower.map fun e => .join .inner (.theta e)
  | .cross => .ok .cross
  | .natural => .ok (.join .inner (.natural none))
  | .leftSemi => .ok (.semi true)
  | .rightSemi => .ok (.semi false)
  | .anti => .ok .anti
  | .outer side qualifier => qualifier.lower.map (BinaryOp.join side.joinKind)

/-- The relation of a name as a plan, or the report that there is none. -/
def relationNamed (catalog : Catalog) (name : Value) (span : Option SourceSpan) : Outcome Plan :=
  if !name.isHashable then wrongType
  else
    match catalog.find? name with
    | none => .error (.query Message.relationNotFound (Members.ofFields [("name", name)]) span)
    | some plan => .ok plan

@[simp] theorem result_lookUp (catalog : Catalog) (verbose : Bool) (name : Value)
    (span : Option SourceSpan) :
    (catalog.lookUp verbose name span).result = relationNamed catalog name span := by
  unfold Catalog.lookUp relationNamed
  split
  · rfl
  · cases catalog.find? name with
    | none => rfl
    | some plan => cases verbose <;> rfl

/-- What is noted at an inline relation: how it was written. -/
def Table.notes (span : SourceSpan) : Notes where
  metadata := Members.ofFields
    [("isInlineRelation", .bool true), ("inlineRelationDefinition", span.text)]

theorem Table.result_lower (table : Table) (origin : Origin) (verbose : Bool) :
    (table.lower origin verbose).result = (do
      let base ← table.relation
      let span ← origin.require "Table"
      .ok (.relation (Table.notes span) base)) := by
  simp only [Table.lower, Traced.result_bind, Traced.result_lift, Traced.result_pure]
  congr! 4
  cases verbose <;> rfl

/-! ### Nodes whose operator can be made -/

section Made

variable {input left right : Traced Plan}

theorem SqlUnary.result_lower {op : SqlUnary} {origin : Origin} {settings : Settings}
    {made : UnaryOp}
    (h : op.operator origin settings.verbose = .ok made) :
    (op.lower input origin settings).result = input.result.map (Plan.unary {} made) := by
  cases op with
  | renameRelation relAlias =>
      cases h
      simp [SqlUnary.lower, map_eq_bind]
  | subquery relAlias =>
      cases h
      simp [SqlUnary.lower, map_eq_bind]
  | orderBy entries =>
      obtain ⟨keys, hkeys, rfl⟩ := map_eq_ok.mp h
      simp [SqlUnary.lower, map_eq_bind, hkeys]
  | limit count offset =>
      obtain ⟨span, hspan, h⟩ := bind_eq_ok.mp h
      obtain ⟨condition, hcondition, h⟩ := bind_eq_ok.mp h
      obtain ⟨_, hlog, h⟩ := bind_eq_ok.mp h
      cases h
      simp only [SqlUnary.lower, Traced.result_bind, Traced.result_lift, Traced.result_pure, hspan,
        hcondition, ok_bind, map_eq_bind, result_write_condition, hlog]

theorem SqlBinary.result_lower {op : SqlBinary} {origin : Origin} {made : BinaryOp}
    (h : op.operator = .ok made) :
    (op.lower left right origin).result =
      left.result >>= fun p => right.result.map (Plan.binary (op.notes origin) made p) := by
  cases op with
  | join kind qualifier =>
      obtain ⟨condition, hcondition, rfl⟩ := map_eq_ok.mp h
      simp [SqlBinary.lower, SqlBinary.notes, qualifiedJoin, map_eq_bind, hcondition]
  | cross =>
      cases h
      simp [SqlBinary.lower, SqlBinary.notes, combine, map_eq_bind]
  | natural =>
      cases h
      simp [SqlBinary.lower, SqlBinary.notes, combine, map_eq_bind]
  | set operation keepsAll =>
      cases h
      cases keepsAll <;>
        simp [SqlBinary.lower, SqlBinary.notes, combine, map_eq_bind, Plan.warn, Plan.withNotes,
          Plan.notes, Notes.warn]

theorem AlgebraUnary.result_lower {op : AlgebraUnary} {made : UnaryOp}
    (h : op.operator = .ok made) :
    (op.lower input).result = input.result.map (Plan.unary {} made) := by
  cases op with
  | selection condition =>
      obtain ⟨condition, hcondition, rfl⟩ := map_eq_ok.mp h
      simp [AlgebraUnary.lower, map_eq_bind, hcondition]
  | projection entries =>
      obtain ⟨columns, hcolumns, rfl⟩ := map_eq_ok.mp h
      simp [AlgebraUnary.lower, map_eq_bind, hcolumns]
  | orderBy entries =>
      obtain ⟨keys, hkeys, rfl⟩ := map_eq_ok.mp h
      simp [AlgebraUnary.lower, map_eq_bind, hkeys]
  | groupBy groups aggregates =>
      obtain ⟨aggregates, haggregates, h⟩ := bind_eq_ok.mp h
      obtain ⟨groups, hgroups, h⟩ := bind_eq_ok.mp h
      cases h
      simp [AlgebraUnary.lower, map_eq_bind, haggregates, hgroups]
  | renameColumns renamings =>
      obtain ⟨renamings, hrenamings, rfl⟩ := map_eq_ok.mp h
      simp [AlgebraUnary.lower, map_eq_bind, hrenamings]
  | renameRelation relAlias =>
      cases h
      simp [AlgebraUnary.lower, map_eq_bind]

theorem AlgebraBinary.result_lower {op : AlgebraBinary} {made : BinaryOp}
    (h : op.operator = .ok made) :
    (op.lower left right).result =
      left.result >>= fun p => right.result.map (Plan.binary {} made p) := by
  cases op with
  | theta condition =>
      obtain ⟨condition, hcondition, rfl⟩ := map_eq_ok.mp h
      simp [AlgebraBinary.lower, combine, map_eq_bind, hcondition]
  | outer side qualifier =>
      obtain ⟨condition, hcondition, rfl⟩ := map_eq_ok.mp h
      simp [AlgebraBinary.lower, qualifiedJoin, map_eq_bind, hcondition]
  | _ =>
      cases h
      simp [AlgebraBinary.lower, combine, map_eq_bind]

/-! ### Lowered nodes have an operator -/

theorem SqlUnary.exists_operator {op : SqlUnary} {origin : Origin} {settings : Settings} {p : Plan}
    (h : (op.lower input origin settings).result = .ok p) :
    ∃ made, op.operator origin settings.verbose = .ok made := by
  cases op with
  | renameRelation relAlias => exact ⟨_, rfl⟩
  | subquery relAlias => exact ⟨_, rfl⟩
  | orderBy entries =>
      simp only [SqlUnary.lower, Traced.result_bind, Traced.result_lift] at h
      obtain ⟨keys, hkeys, -⟩ := bind_eq_ok.mp h
      exact ⟨_, map_eq_ok.mpr ⟨keys, hkeys, rfl⟩⟩
  | limit count offset =>
      simp only [SqlUnary.lower, Traced.result_bind, Traced.result_lift,
        result_write_condition] at h
      obtain ⟨span, hspan, h⟩ := bind_eq_ok.mp h
      obtain ⟨condition, hcondition, h⟩ := bind_eq_ok.mp h
      obtain ⟨_, hlog, -⟩ := bind_eq_ok.mp h
      exact ⟨_, by simp only [SqlUnary.operator, hspan, hcondition, hlog, ok_bind]; rfl⟩

theorem SqlBinary.exists_operator {op : SqlBinary} {origin : Origin} {p : Plan}
    (h : (op.lower left right origin).result = .ok p) : ∃ made, op.operator = .ok made := by
  cases op with
  | join kind qualifier =>
      simp only [SqlBinary.lower, qualifiedJoin, Traced.result_bind, Traced.result_lift] at h
      obtain ⟨_, -, h⟩ := bind_eq_ok.mp h
      obtain ⟨_, -, h⟩ := bind_eq_ok.mp h
      obtain ⟨condition, hcondition, -⟩ := bind_eq_ok.mp h
      exact ⟨_, map_eq_ok.mpr ⟨condition, hcondition, rfl⟩⟩
  | cross => exact ⟨_, rfl⟩
  | natural => exact ⟨_, rfl⟩
  | set operation keepsAll => exact ⟨_, rfl⟩

theorem AlgebraUnary.exists_operator {op : AlgebraUnary} {p : Plan}
    (h : (op.lower input).result = .ok p) : ∃ made, op.operator = .ok made := by
  cases op with
  | selection condition =>
      simp only [AlgebraUnary.lower, Traced.result_bind, Traced.result_lift] at h
      obtain ⟨_, -, h⟩ := bind_eq_ok.mp h
      obtain ⟨condition, hcondition, -⟩ := bind_eq_ok.mp h
      exact ⟨_, map_eq_ok.mpr ⟨condition, hcondition, rfl⟩⟩
  | projection entries =>
      simp only [AlgebraUnary.lower, Traced.result_bind, Traced.result_ofOutcome] at h
      obtain ⟨_, -, h⟩ := bind_eq_ok.mp h
      obtain ⟨columns, hcolumns, -⟩ := bind_eq_ok.mp h
      exact ⟨_, map_eq_ok.mpr ⟨columns, hcolumns, rfl⟩⟩
  | orderBy entries =>
      simp only [AlgebraUnary.lower, Traced.result_bind, Traced.result_lift] at h
      obtain ⟨keys, hkeys, -⟩ := bind_eq_ok.mp h
      exact ⟨_, map_eq_ok.mpr ⟨keys, hkeys, rfl⟩⟩
  | groupBy groups aggregates =>
      simp only [AlgebraUnary.lower, Traced.result_bind, Traced.result_ofOutcome] at h
      obtain ⟨aggregates, haggregates, h⟩ := bind_eq_ok.mp h
      obtain ⟨_, -, h⟩ := bind_eq_ok.mp h
      obtain ⟨groups, hgroups, -⟩ := bind_eq_ok.mp h
      exact ⟨_, by simp only [AlgebraUnary.operator, haggregates, hgroups, ok_bind]; rfl⟩
  | renameColumns renamings =>
      simp only [AlgebraUnary.lower, Traced.result_bind, Traced.result_ofOutcome] at h
      obtain ⟨renamings, hrenamings, -⟩ := bind_eq_ok.mp h
      exact ⟨_, map_eq_ok.mpr ⟨renamings, hrenamings, rfl⟩⟩
  | renameRelation relAlias => exact ⟨_, rfl⟩

theorem AlgebraBinary.exists_operator {op : AlgebraBinary} {p : Plan}
    (h : (op.lower left right).result = .ok p) : ∃ made, op.operator = .ok made := by
  cases op with
  | theta condition =>
      simp only [AlgebraBinary.lower, Traced.result_bind, Traced.result_lift] at h
      obtain ⟨condition, hcondition, -⟩ := bind_eq_ok.mp h
      exact ⟨_, map_eq_ok.mpr ⟨condition, hcondition, rfl⟩⟩
  | outer side qualifier =>
      simp only [AlgebraBinary.lower, qualifiedJoin, Traced.result_bind, Traced.result_lift] at h
      obtain ⟨_, -, h⟩ := bind_eq_ok.mp h
      obtain ⟨_, -, h⟩ := bind_eq_ok.mp h
      obtain ⟨condition, hcondition, -⟩ := bind_eq_ok.mp h
      exact ⟨_, map_eq_ok.mpr ⟨condition, hcondition, rfl⟩⟩
  | _ => exact ⟨_, rfl⟩

end Made

end Query

end LogicalPlan
