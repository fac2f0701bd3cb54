import LogicalPlan.Proofs.Derivation.Located
import LogicalPlan.Proofs.Lowering.Shape
import LogicalPlan.Proofs.Query.WellFormed

/-!
# Labels of lowered operators

The log reports plans by their labels, and an entry whose text cannot be produced fails the
lowering. Operators that are made from well-typed queries have labels, so their reports do not fail.
-/

namespace LogicalPlan

open Outcome

namespace Query

theorem logged_eq_ok (settings : Settings) {p : Plan} (h : settings.verbose = true → p.HasLabel) :
    logged settings p = .ok () := by
  unfold logged
  split
  case isTrue hverbose => exact discard_eq_ok.mpr (Gives.exists_ok (h hverbose))
  case isFalse => rfl

theorem argumentTexts_literals {α : Type} (value : α → Value) (as : List α) :
    Gives (fun _ => True) (Expr.argumentTexts (as.map fun a => .literal (value a))) := by
  induction as with
  | nil => trivial
  | cons a as ih =>
      refine Yields.bind (Q := fun _ => True) trivial ?_
      intro _ _
      exact ih.bind fun _ _ => trivial

mutual

/-- Typed expressions are lowered to expressions that have a text. -/
theorem Term.hasText_of_lower :
    ∀ {t : Term} {e : Expr}, t.isTyped = true → t.lower = .ok e → e.HasText
  | .mk origin datatype func args, e, ht, h => by
    simp only [isTyped, Bool.and_eq_true, Bool.or_eq_true, beq_iff_eq] at ht
    obtain ⟨⟨-, hfunc⟩, hargs⟩ := ht
    unfold lower at h
    split at h
    case isTrue =>
      obtain ⟨ref, -, h⟩ := bind_eq_ok.mp h
      cases h
      trivial
    case isFalse hcolumn =>
      split at h
      · cases h
      split at h
      · cases h
      split at h
      case isTrue hconstant =>
        cases h
        unfold Expr.HasText Expr.text
        rw [if_pos hconstant]
        apply (argumentTexts_literals literalOf args).bind
        intro _ _
        exact trivial
      case isFalse hconstant =>
        obtain ⟨lowered, hlowered, h⟩ := bind_eq_ok.mp h
        cases h
        have typed : areTyped args = true := by
          rcases hargs with (hconstant' | hcolumn') | hargs
          · exact absurd hconstant' hconstant
          · exact absurd hcolumn' hcolumn
          · exact hargs
        obtain ⟨operands, arguments⟩ := texts_of_lowerArguments typed hlowered
        unfold Expr.HasText Expr.text
        rw [if_neg hconstant, Value.isHashable_of_isText hfunc]
        exact .ite (by simp) fun _ =>
          .ite (fun _ => operands.bind fun _ _ => trivial) fun _ =>
            .ite (fun _ => operands.bind fun _ _ => trivial) fun _ =>
              arguments.bind fun _ _ => trivial

theorem Term.texts_of_lowerArguments :
    ∀ {args : List TermArgument} {lowered : List Argument}, areTyped args = true →
      lowerArguments args = .ok lowered →
        Gives (fun _ => True) (Expr.operandTexts lowered) ∧
          Gives (fun _ => True) (Expr.argumentTexts lowered)
  | [], _, _, h => by
    cases h
    exact ⟨trivial, trivial⟩
  | .literal _ :: _, _, _, h => by
    cases h
  | .nested t :: as, lowered, ht, h => by
    simp only [areTyped, Bool.and_eq_true] at ht
    obtain ⟨first, hfirst, h⟩ := bind_eq_ok.mp h
    obtain ⟨others, hothers, h⟩ := bind_eq_ok.mp h
    obtain ⟨e, he, rfl⟩ := map_eq_ok.mp hfirst
    cases h
    obtain ⟨operands, arguments⟩ := texts_of_lowerArguments ht.2 hothers
    have text := hasText_of_lower ht.1 he
    exact ⟨text.bind fun _ _ => operands.bind fun _ _ => trivial,
      text.bind fun _ _ => arguments.bind fun _ _ => trivial⟩

end

theorem hasText_booleanOf {origin : Origin} {operator : String} {left right : Expr}
    (hl : left.HasText) (hr : right.HasText) : (booleanOf origin operator left right).HasText := by
  have last : Gives (fun _ => True) (Expr.operandTexts [.nested right]) :=
    hr.bind fun _ _ => trivial
  have operands : Gives (fun _ => True) (Expr.operandTexts [.nested left, .nested right]) :=
    hl.bind fun _ _ => last.bind fun _ _ => trivial
  have arguments : Gives (fun _ => True) (Expr.argumentTexts [.nested left, .nested right]) :=
    operands
  unfold Expr.HasText booleanOf Expr.text
  refine .ite (fun _ => arguments.bind fun _ _ => trivial) ?_
  intro _
  refine .ite (fun h => absurd h (by simp [Value.isHashable])) fun _ => ?_
  refine .ite (fun _ => operands.bind fun _ _ => trivial) ?_
  intro _
  refine .ite (fun _ => operands.bind fun _ _ => trivial) ?_
  intro _
  exact arguments.bind fun _ _ => trivial

/-- The condition of a limit has a text. -/
theorem hasText_of_limitCondition {limit offset : Value} {span : Option SourceSpan} {e : Expr}
    (h : limitCondition limit offset span = .ok e) : e.HasText := by
  have number (origin : Origin) : (rowNumber origin).HasText := by
    simp [Expr.HasText, rowNumber, Expr.text, Expr.constantName, Expr.argumentTexts,
      Value.isHashable]
  have comparison (origin : Origin) (operator : String) (v : Value) :
      (booleanOf origin operator (rowNumber origin) (numberConstant origin v)).HasText :=
    hasText_booleanOf (number origin) trivial
  unfold limitCondition at h
  split at h
  · cases h
    exact comparison _ _ _
  · obtain ⟨last, -, h⟩ := bind_eq_ok.mp h
    cases h
    exact hasText_booleanOf (comparison _ _ _) (comparison _ _ _)

section Standard

variable {s : Standard} (hs : s.IsTyped)
include hs

theorem hasLabel_selection {t : Term} {e : Expr} (ht : s.term t = true) (h : t.lower = .ok e) :
    (UnaryOp.selection e).HasLabel :=
  (Term.hasText_of_lower (hs ht) h).bind fun _ _ => trivial

theorem ComputedColumn.text_of_lower {c : ComputedColumn} {item : ProjectionItem}
    (hc : c.meets s = true) (h : c.lower = .ok item) : Gives (fun _ => True) item.text := by
  simp only [ComputedColumn.meets, Bool.and_eq_true] at hc
  obtain ⟨child, hchild, h⟩ := bind_eq_ok.mp h
  cases h
  exact (Term.hasText_of_lower (hs hc.2) hchild).bind fun _ _ => trivial

theorem SelectItem.text_of_lower {item : SelectItem} {made : ProjectionItem}
    (hi : item.meets s = true) (h : item.lower = .ok made) : Gives (fun _ => True) made.text := by
  cases item with
  | column _ name relAlias label =>
      obtain ⟨c, -, rfl⟩ := map_eq_ok.mp h
      trivial
  | aggregate call =>
      obtain ⟨c, -, rfl⟩ := map_eq_ok.mp h
      trivial
  | computed c => exact c.text_of_lower hs hi h

theorem ProjectionEntry.text_of_lower {entry : ProjectionEntry} {made : ProjectionItem}
    (he : entry.meets s = true) (h : entry.lower = .ok made) : Gives (fun _ => True) made.text := by
  cases entry with
  | column ref =>
      obtain ⟨c, -, rfl⟩ := map_eq_ok.mp h
      trivial
  | computed c => exact c.text_of_lower hs he h

omit hs in
theorem AggregateCall.text_of_lower {call : AggregateCall} {agg : Aggregate}
    (hc : call.meets s = true) (h : call.lower = .ok agg) : Gives (fun _ => True) agg.text := by
  simp only [AggregateCall.meets, Bool.and_eq_true] at hc
  obtain ⟨function, hfunction⟩ := Value.eq_string_of_isText hc.1.1
  obtain ⟨column, -, h⟩ := bind_eq_ok.mp h
  cases h
  simp [Aggregate.text, hfunction]

theorem JoinQualifier.text_of_lower {qualifier : JoinQualifier} {condition : JoinCondition}
    (hq : qualifier.meets s = true) (h : qualifier.lower = .ok condition) :
    Gives (fun _ => True) condition.text := by
  cases qualifier with
  | absent =>
      cases h
      trivial
  | columns names =>
      cases h
      simp only [JoinQualifier.meets, List.all_eq_true] at hq
      refine Yields.map (Q := fun _ => True) ?_ fun _ _ => trivial
      refine (Yields.mapM (Q := fun _ => True) fun name hname => ?_).mono fun _ _ => trivial
      obtain ⟨text, rfl⟩ := Value.eq_string_of_isText (hq name hname)
      trivial
  | condition t =>
      obtain ⟨e, he, rfl⟩ := map_eq_ok.mp h
      exact Term.hasText_of_lower (hs hq) he

omit hs in
theorem hasLabel_projection {items : List ProjectionItem}
    (h : ∀ item ∈ items, Gives (fun _ => True) item.text) : (UnaryOp.projection items).HasLabel :=
  (Yields.mapM h).bind fun _ _ => trivial

omit hs in
theorem hasLabel_groupBy {calls : List AggregateCall} {aggregates : List Aggregate}
    (hc : ∀ call ∈ calls, call.meets s = true) (h : calls.mapM AggregateCall.lower = .ok aggregates)
    (groups : List Column) : (UnaryOp.groupBy groups aggregates).HasLabel := by
  refine (Yields.mapM (Q := fun _ => True) fun agg hagg => ?_).bind fun _ _ => trivial
  obtain ⟨call, hcall, hlower⟩ := exists_of_mem_mapM h hagg
  exact call.text_of_lower (hc call hcall) hlower

/-- The operators of well-typed unary algebra nodes have labels. -/
theorem AlgebraUnary.hasLabel_of_operator {op : AlgebraUnary} {made : UnaryOp}
    (ho : op.meets s = true) (h : op.operator = .ok made) : made.HasLabel := by
  cases op with
  | selection condition =>
      obtain ⟨e, he, rfl⟩ := map_eq_ok.mp h
      exact hasLabel_selection hs ho he
  | projection entries =>
      obtain ⟨items, hitems, rfl⟩ := map_eq_ok.mp h
      simp only [AlgebraUnary.meets, List.all_eq_true] at ho
      refine hasLabel_projection ?_
      intro item hitem
      obtain ⟨entry, hentry, hlower⟩ := exists_of_mem_mapM hitems hitem
      exact entry.text_of_lower hs (ho entry hentry) hlower
  | orderBy entries =>
      obtain ⟨keys, -, rfl⟩ := map_eq_ok.mp h
      trivial
  | groupBy groups aggregates =>
      obtain ⟨made, hmade, h⟩ := bind_eq_ok.mp h
      obtain ⟨columns, -, h⟩ := bind_eq_ok.mp h
      cases h
      simp only [AlgebraUnary.meets, Bool.and_eq_true, List.all_eq_true] at ho
      exact hasLabel_groupBy ho.2 hmade columns
  | renameColumns renamings =>
      obtain ⟨made, -, rfl⟩ := map_eq_ok.mp h
      trivial
  | renameRelation relAlias =>
      cases h
      trivial

/-- The operators of well-typed binary algebra nodes have labels. -/
theorem AlgebraBinary.hasLabel_of_operator {op : AlgebraBinary} {made : BinaryOp}
    (ho : op.meets s = true) (h : op.operator = .ok made) : made.HasLabel := by
  cases op with
  | theta condition =>
      obtain ⟨e, he, rfl⟩ := map_eq_ok.mp h
      exact (Term.hasText_of_lower (hs ho) he).bind fun _ _ => trivial
  | outer side qualifier =>
      obtain ⟨condition, hcondition, rfl⟩ := map_eq_ok.mp h
      apply (qualifier.text_of_lower hs ho hcondition).bind
      intro _ _
      exact trivial
  | natural =>
      cases h
      trivial
  | _ =>
      cases h
      trivial

omit hs in
/-- The operators of unary SQL nodes have labels. -/
theorem SqlUnary.hasLabel_of_operator {op : SqlUnary} {origin : Origin} {verbose : Bool}
    {made : UnaryOp} (h : op.operator origin verbose = .ok made) : made.HasLabel := by
  cases op with
  | renameRelation relAlias =>
      cases h
      trivial
  | subquery relAlias =>
      cases h
      trivial
  | orderBy entries =>
      obtain ⟨keys, -, rfl⟩ := map_eq_ok.mp h
      trivial
  | limit count offset =>
      obtain ⟨span, -, h⟩ := bind_eq_ok.mp h
      obtain ⟨condition, hcondition, h⟩ := bind_eq_ok.mp h
      obtain ⟨_, -, h⟩ := bind_eq_ok.mp h
      cases h
      apply (hasText_of_limitCondition hcondition).bind
      intro _ _
      exact trivial

/-- The operators of well-typed binary SQL nodes have labels. -/
theorem SqlBinary.hasLabel_of_operator {op : SqlBinary} {made : BinaryOp}
    (ho : op.meets s = true) (h : op.operator = .ok made) : made.HasLabel := by
  cases op with
  | join kind qualifier =>
      obtain ⟨condition, hcondition, rfl⟩ := map_eq_ok.mp h
      apply (qualifier.text_of_lower hs ho hcondition).bind
      intro _ _
      exact trivial
  | cross =>
      cases h
      trivial
  | natural =>
      cases h
      trivial
  | set operation keepsAll =>
      cases h
      cases operation <;> trivial

namespace Clauses

variable {clauses : Clauses} {op : UnaryOp}

theorem hasLabel_filter {clause : Option ConditionClause}
    (hc : clause.all (ConditionClause.meets s))
    (h : (filterStage clause).operator = .ok (some op)) : op.HasLabel := by
  cases clause with
  | none => cases h
  | some clause =>
      obtain ⟨e, he, h⟩ := map_eq_ok.mp h
      cases h
      simp only [Option.all_some, ConditionClause.meets, Bool.and_eq_true] at hc
      exact hasLabel_selection hs hc.2 he

omit hs in
theorem hasLabel_grouping (hc : clauses.select.items.all (SelectItem.meets s) = true)
    (h : clauses.groupingOperator = .ok (some op)) : op.HasLabel := by
  obtain ⟨aggregates, haggregates, h⟩ := bind_eq_ok.mp h
  obtain ⟨isGrouped, -, h⟩ := bind_eq_ok.mp h
  cases isGrouped with
  | false => cases h
  | true =>
      obtain ⟨groups, -, h⟩ := bind_eq_ok.mp h
      cases h
      split
      · refine hasLabel_projection ?_
        intro item hitem
        obtain ⟨c, -, rfl⟩ := List.mem_map.mp hitem
        trivial
      · refine hasLabel_groupBy (s := s) (fun call hcall => ?_) haggregates groups
        exact meets_of_mem_aggregateCalls hc hcall

theorem hasLabel_select (hc : clauses.select.items.all (SelectItem.meets s) = true)
    (h : clauses.selectOperator = .ok (some op)) : op.HasLabel := by
  unfold selectOperator at h
  split at h
  · cases h
  · obtain ⟨columns, hcolumns, h⟩ := map_eq_ok.mp h
    cases h
    refine hasLabel_projection ?_
    intro column hcolumn
    obtain ⟨item, hitem, hlower⟩ := exists_of_mem_mapM hcolumns hcolumn
    exact item.text_of_lower hs (List.all_eq_true.mp hc item hitem) hlower

omit hs in
theorem hasLabel_naming (h : clauses.namingOperator = .ok (some op)) : op.HasLabel := by
  obtain ⟨renamings, -, h⟩ := bind_eq_ok.mp h
  cases hnames : renamings.filterMap id with
  | nil =>
      rw [hnames] at h
      cases h
  | cons r rs =>
      rw [hnames] at h
      cases h
      trivial

/-- The operators of all stages of a well-typed statement have labels. -/
theorem hasLabel_of_stage {origin : Origin} {stage : Stage} (hc : clauses.meets s = true)
    (hstage : stage ∈ clauses.stages origin) (h : stage.operator = .ok (some op)) :
    op.HasLabel := by
  simp only [Clauses.meets, Bool.and_eq_true] at hc
  obtain ⟨⟨⟨⟨⟨-, hitems⟩, hfilter⟩, -⟩, hhaving⟩, -⟩ := hc
  simp only [stages, List.mem_cons, List.not_mem_nil, or_false] at hstage
  rcases hstage with rfl | rfl | rfl | rfl | rfl
  · exact hasLabel_filter hs hfilter h
  · exact hasLabel_grouping hitems h
  · exact hasLabel_filter hs hhaving h
  · exact hasLabel_select hs hitems h
  · exact hasLabel_naming h

end Clauses

end Standard

/-! ### Plans with labels -/

/-- Without checks, a stage puts its operator over the plan. -/
theorem Stage.run_eq_annotate {settings : Settings} (hcheck : settings.checkSchemas = false)
    {stage : Stage} {made : UnaryOp} (h : stage.operator = .ok (some made))
    (hlabel : made.HasLabel) (p : Plan) :
    stage.run settings p =
      (Plan.unary {} made p).annotate stage.kind stage.origin [] none := by
  simp only [Stage.run, stage.check_eq_ok hcheck, h, ok_bind]
  cases hannotated : (Plan.unary {} made p).annotate stage.kind stage.origin [] none with
  | error fault => rfl
  | ok plan =>
      obtain ⟨span, -, rfl⟩ := Plan.annotate_eq_ok.mp hannotated
      have label : ((Plan.unary {} made p).overlay stage.origin span []).HasLabel := hlabel
      simp only [ok_bind, logged_eq_ok settings fun _ => label]

/-- Running stages keeps labels if their operators have labels. -/
theorem Applied.hasLabel {stages : List Stage} {p q : Plan} (h : Applied stages p q)
    (hlabel : ∀ stage ∈ stages, ∀ op, stage.operator = .ok (some op) → op.HasLabel)
    (hp : p.HasLabel) : q.HasLabel := by
  induction h with
  | nil p => exact hp
  | keep hmade rest ih => exact ih (fun stage hstage => hlabel stage (by simp [hstage])) hp
  | @put stage stages p q op span hmade hspan rest ih =>
      have label : op.HasLabel := hlabel stage List.mem_cons_self op hmade
      exact ih (fun stage hstage => hlabel stage (by simp [hstage])) label

/-- The plan of a well-typed query over relations whose names are texts has a label. -/
theorem Sql.Lowered.hasLabel {s : Standard} (hs : s.IsTyped) {catalog : Catalog}
    (hc : catalog.isWellTyped = true) {verbose : Bool} {q : Sql} {p : Plan} (hq : q.meets s = true)
    (h : Lowered catalog verbose q p) : p.HasLabel := by
  induction h with
  | @relation origin span name relAlias notes base hfind hspan =>
      obtain ⟨_, hmem⟩ := Catalog.mem_of_find? hfind
      obtain ⟨label, hlabel⟩ := Value.eq_string_of_isText (List.all_eq_true.mp hc _ hmem)
      have named : Gives (fun _ => True) base.name.asText := by
        rw [show base.name = .string label from hlabel]
        trivial
      exact named
  | aliased hfind hspan => exact trivial
  | @statement origin span clauses source p q below happlied hspan ih =>
      simp only [meets, Bool.and_eq_true] at hq
      have label : q.HasLabel := happlied.hasLabel
        (fun stage hstage op => Clauses.hasLabel_of_stage hs hq.1.2 hstage)
        (ih hq.2)
      unfold Clauses.advise
      split
      · exact label.withNotes _
      · exact (label.withNotes _).withNotes _
  | @unary origin span op made child p hmade below hspan ih => exact op.hasLabel_of_operator hmade
  | @binary origin span op made left right p q hmade leftBelow rightBelow hspan ihl ihr =>
      simp only [meets, Bool.and_eq_true] at hq
      exact op.hasLabel_of_operator hs hq.1.1.2 hmade

end Query

end LogicalPlan
