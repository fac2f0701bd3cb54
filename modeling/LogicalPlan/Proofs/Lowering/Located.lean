import LogicalPlan.Lowering.Grammar
import LogicalPlan.Proofs.Derivation.Located
import LogicalPlan.Proofs.Lowering.Labels
import LogicalPlan.Proofs.Store.Insert

/-!
# Located faults of lowerings

A well-formed query over relations with schemas is lowered to a sound plan, or it is reported as
faulty at a position of one of its nodes, clauses or expressions. The same holds of checking the
plan afterwards.

## Implementation notes

All parts of a well-formed query can be lowered. Only the lookup of relations and the checks of
schemas on the way report faults.
-/

namespace LogicalPlan

open Outcome

variable {P : SourceSpan → Prop}

theorem Column.make_gives {name relAlias : Value} (hname : Query.Term.isReference name = true)
    (hrel : relAlias.isOptionalText = true) :
    Gives (fun _ => True) (Column.make name relAlias) := by
  have nonempty : ¬(name = .null ∨ name = .string "") := by
    rintro (rfl | rfl) <;> cases hname
  have hashable := Query.Term.isHashable_of_isReference hname
  have relHashable : (if relAlias.isTruthy then relAlias else .null).isHashable = true := by
    split
    · exact Value.isHashable_of_isOptionalText hrel
    · rfl
  simp [make, nonempty, hashable, relHashable]

theorem Value.add_gives {v w : Value} (hv : v.isInteger = true) (hw : w.isInteger = true) :
    Gives (fun _ => True) (v.add w) := by
  rcases eq_of_isInteger hv with ⟨b, rfl⟩ | ⟨i, rfl⟩ <;>
    rcases eq_of_isInteger hw with ⟨c, rfl⟩ | ⟨j, rfl⟩ <;> exact trivial

theorem Plan.IsSoundBelow.annotate {p : Plan} (h : p.IsSoundBelow P) {origin : Origin}
    (horigin : IsPlaced P origin.span) (kind : String) (metadata : Members) :
    Gives (Plan.IsSound P) (p.annotate kind origin metadata none) := by
  obtain ⟨span, hspan, hP⟩ := horigin
  simp only [Plan.annotate, Origin.require, hspan, ok_bind]
  exact h _ ⟨span, rfl, hP⟩

theorem Plan.isSoundBelow_unary {op : UnaryOp} {p : Plan} (hop : op.IsSound P) (hp : p.IsSound P)
    (notes : Notes) : (Plan.unary notes op p).IsSoundBelow P :=
  fun _ hspan => ⟨hspan, hop, hp⟩

theorem Plan.isSoundBelow_binary {op : BinaryOp} {p q : Plan} (hop : op.IsSound P)
    (hp : p.IsSound P) (hq : q.IsSound P) (notes : Notes) :
    (Plan.binary notes op p q).IsSoundBelow P :=
  fun _ hspan => ⟨hspan, hop, hp, hq⟩

namespace Query

variable {s : Standard} [s.IsStrict]

/-- The property holds of all positions that the origins have. -/
def Admits (P : SourceSpan → Prop) (origins : List Origin) : Prop :=
  ∀ o ∈ origins, ∀ s, o.span = some s → P s

@[simp] theorem admits_cons {o : Origin} {os : List Origin} :
    Admits P (o :: os) ↔ (∀ s, o.span = some s → P s) ∧ Admits P os := by
  simp [Admits]

@[simp] theorem admits_append {os ps : List Origin} :
    Admits P (os ++ ps) ↔ Admits P os ∧ Admits P ps := by
  simp only [Admits, List.mem_append, or_imp, forall_and]

@[simp] theorem admits_flatMap {α : Type} {f : α → List Origin} {as : List α} :
    Admits P (as.flatMap f) ↔ ∀ a ∈ as, Admits P (f a) := by
  simp only [Admits, List.mem_flatMap]
  constructor
  · intro h a ha o ho
    exact h o ⟨a, ha, ho⟩
  · rintro h o ⟨a, ha, ho⟩
    exact h a ha o ho

theorem isPlaced_of_isSome {o : Origin} (h : o.span.isSome = true)
    (hP : ∀ span, o.span = some span → P span) : IsPlaced P o.span := by
  obtain ⟨span, hspan⟩ := Option.isSome_iff_exists.mp h
  exact ⟨span, hspan, hP span hspan⟩

theorem isPlaced_of_meets {o : Origin} (h : s.origin o = true)
    (hP : ∀ span, o.span = some span → P span) : IsPlaced P o.span :=
  isPlaced_of_isSome (Standard.IsStrict.origin h) hP

theorem ColumnRef.lower_gives {c : ColumnRef} (h : c.meets s = true) :
    Gives (fun _ => True) c.lower := by
  simp only [ColumnRef.meets, Bool.and_eq_true] at h
  exact Column.make_gives (Standard.isReference_of_reference h.1) h.2

theorem lowerColumn_gives {c : Option ColumnRef} (h : referenceMeets s c = true) :
    Gives (fun _ => True) (lowerColumn c) := by
  cases c with
  | none => cases h
  | some c => exact c.lower_gives h

theorem lowerOrder_gives {entries : List OrderEntry}
    (h : entries.all (OrderEntry.meets s) = true) :
    Gives (fun _ => True) (lowerOrder entries) := by
  refine (Yields.mapM (Q := fun _ => True) fun entry hentry => ?_).mono fun _ _ => trivial
  apply (lowerColumn_gives (List.all_eq_true.mp h entry hentry)).bind
  intro _ _
  exact trivial

theorem Term.columnOf_gives {args : List TermArgument} (h : nameColumn isReference args = true) :
    Gives (fun _ => True) (columnOf (args.map literalOf)) := by
  match args with
  | [.literal name] => exact Column.make_gives h rfl
  | .literal name :: .literal relAlias :: _ =>
      simp only [nameColumn, Bool.and_eq_true] at h
      exact Column.make_gives h.1 h.2

mutual

/-- Expressions that can be lowered are, and keep their positions. -/
theorem Term.lower_gives :
    ∀ {t : Term}, t.isLowerable = true → Admits P t.origins → Gives (Expr.IsPlaced P) t.lower
  | .mk origin datatype func args, h, hP => by
    simp only [isLowerable, Bool.and_eq_true] at h
    obtain ⟨⟨horigin, -⟩, h⟩ := h
    rw [origins, admits_cons] at hP
    have placed := isPlaced_of_isSome horigin hP.1
    unfold lower
    by_cases hcolumn : datatype = .string "null" ∧ func = columnName
    case pos =>
      rw [if_pos hcolumn] at h ⊢
      apply (columnOf_gives h).bind
      intro c _ part hpart
      rw [List.mem_singleton.mp hpart]
      exact placed
    case neg =>
      simp only [hcolumn, if_false, Bool.and_eq_true, Bool.or_eq_true, beq_iff_eq] at h
      have hashable := Value.isHashable_of_isText (isText_of_supported h.1)
      rw [if_neg hcolumn, hashable, h.1, if_neg (by simp), if_neg (by simp)]
      refine .ite (fun hconstant part hpart => ?_) fun hconstant => ?_
      · simp only [Expr.walk, hconstant, if_true, List.mem_singleton] at hpart
        rw [hpart]
        exact placed
      · refine (lowerArguments_gives (h.2.resolve_left hconstant) hP.2).bind ?_
        intro lowered hl part hpart
        simp only [Expr.walk, hconstant, if_false, List.mem_cons] at hpart
        rcases hpart with rfl | hpart
        · exact placed
        · exact hl part hpart

theorem Term.lowerArguments_gives :
    ∀ {args : List TermArgument}, areLowerable args = true → Admits P (argumentOrigins args) →
      Gives (fun lowered => ∀ part ∈ Expr.walkArguments lowered, IsPlaced P part.span)
        (lowerArguments args)
  | [], _, _ => by
    intro part hpart
    cases hpart
  | .literal _ :: _, h, _ => by simp [areLowerable] at h
  | .nested t :: as, h, hP => by
    simp only [areLowerable, Bool.and_eq_true] at h
    rw [argumentOrigins, admits_append] at hP
    have first : Gives (fun a => ∀ part ∈ Expr.walkArgument a, IsPlaced P part.span)
        (lowerArgument (.nested t)) :=
      (lower_gives h.1 hP.1).map fun e he => he
    refine first.bind fun a ha => (lowerArguments_gives h.2 hP.2).bind fun others ho => ?_
    intro part hpart
    rcases List.mem_append.mp hpart with hpart | hpart
    · exact ha part hpart
    · exact ho part hpart

end

theorem AggregateCall.lower_gives {call : AggregateCall} (h : call.meets s = true) :
    Gives (fun agg => agg.name.isHashable = true) call.lower := by
  simp only [AggregateCall.meets, Bool.and_eq_true] at h
  have column : Gives (fun _ => True) (call.column.mapM ColumnRef.lower) := by
    cases hcolumn : call.column with
    | none => trivial
    | some c =>
        rw [hcolumn] at h
        exact (c.lower_gives h.1.2).map fun _ _ => trivial
  apply column.bind
  intro _ _
  exact Standard.isHashable_of_name h.2

theorem ComputedColumn.lower_gives {c : ComputedColumn} (h : c.meets s = true)
    (hP : Admits P c.child.origins) : Gives (ProjectionItem.IsSound P) c.lower := by
  simp only [ComputedColumn.meets, Bool.and_eq_true] at h
  obtain ⟨⟨hname, hrel⟩, hchild⟩ := h
  have hashable := Term.isHashable_of_isReference (Standard.isReference_of_reference hname)
  apply (Term.lower_gives (Standard.IsStrict.term hchild) hP).bind
  intro child hplaced
  exact ⟨hashable, Value.isHashable_of_isOptionalText hrel, hplaced⟩

theorem SelectItem.lower_gives {item : SelectItem} (h : item.meets s = true)
    (hP : Admits P item.origins) : Gives (ProjectionItem.IsSound P) item.lower := by
  cases item with
  | column _ name relAlias label =>
      simp only [SelectItem.meets, Bool.and_eq_true] at h
      exact (Column.make_gives (Standard.isReference_of_reference h.1.1) h.1.2).map
        fun _ _ => trivial
  | aggregate call =>
      simp only [SelectItem.meets, AggregateCall.meets, Bool.and_eq_true] at h
      have named : Term.isReference call.name = true :=
        (Bool.or_eq_true _ _).mpr (.inl (Standard.IsStrict.name h.2))
      exact (Column.make_gives named rfl).map fun _ _ => trivial
  | computed c => exact c.lower_gives h hP

theorem SelectItem.newName_gives {item : SelectItem} (h : item.meets s = true) :
    Gives (fun named => ∀ r ∈ named, r.newName.isHashable = true) item.newName := by
  cases item with
  | column _ name relAlias label =>
      simp only [SelectItem.meets, Bool.and_eq_true] at h
      refine .ite (fun _ => ?_) fun _ => nofun
      apply (Column.make_gives (Standard.isReference_of_reference h.1.1) h.1.2).map
      intro c _ r hr
      cases hr
      exact Value.isHashable_of_isOptionalText h.2
  | aggregate call => nofun
  | computed c => nofun

theorem ProjectionEntry.lower_gives {entry : ProjectionEntry} (h : entry.meets s = true)
    (hP : Admits P entry.origins) : Gives (ProjectionItem.IsSound P) entry.lower := by
  cases entry with
  | column ref => exact (ref.lower_gives h).map fun _ _ => trivial
  | computed c => exact c.lower_gives h hP

theorem ColumnRenaming.lower_gives {r : ColumnRenaming} (h : r.meets s = true) :
    Gives (fun named => named.newName.isHashable = true) r.lower := by
  simp only [ColumnRenaming.meets, Bool.and_eq_true] at h
  apply (lowerColumn_gives h.1).bind
  intro _ _
  exact Standard.isHashable_of_name h.2

/-- The operators of well-formed unary algebra nodes are sound. -/
theorem AlgebraUnary.operator_gives {op : AlgebraUnary} (h : op.meets s = true)
    (hP : Admits P op.origins) : Gives (UnaryOp.IsSound P) op.operator := by
  have labelled (made : UnaryOp) (hmade : op.operator = .ok made) : made.HasLabel :=
    op.hasLabel_of_operator s.isTyped h hmade
  refine Yields.assuming labelled ?_
  cases op with
  | selection condition =>
      apply (Term.lower_gives (Standard.IsStrict.term h) hP).map
      intro e he
      exact UnaryOp.isSound_selection he
  | projection entries =>
      simp only [AlgebraUnary.meets, List.all_eq_true] at h
      simp only [AlgebraUnary.origins, admits_flatMap] at hP
      exact (Yields.mapM fun entry hentry =>
        entry.lower_gives (h entry hentry) (hP entry hentry)).map
        fun items hitems => UnaryOp.isSound_projection hitems
  | orderBy entries =>
      apply (lowerOrder_gives h).map
      intro keys _
      exact UnaryOp.isSound_orderBy
  | groupBy groups aggregates =>
      simp only [AlgebraUnary.meets, Bool.and_eq_true, List.all_eq_true] at h
      apply (Yields.mapM fun call hcall => call.lower_gives (h.2 call hcall)).bind
      intro made hmade
      apply (Yields.mapM fun c hc => lowerColumn_gives (h.1 c hc)).bind
      intro columns _
      exact UnaryOp.isSound_groupBy hmade
  | renameColumns renamings =>
      simp only [AlgebraUnary.meets, List.all_eq_true] at h
      apply (Yields.mapM fun r hr => r.lower_gives (h r hr)).map
      intro made hmade _
      exact UnaryOp.isSound_renameColumns hmade
  | renameRelation relAlias =>
      exact fun _ => UnaryOp.isSound_renameRelation (Value.isHashable_of_isText h)

theorem JoinQualifier.lower_gives {qualifier : JoinQualifier} (h : qualifier.meets s = true)
    (hP : Admits P qualifier.origins) (kind : JoinKind) :
    Gives (fun condition => (BinaryOp.join kind condition).IsSound P) qualifier.lower := by
  have labelled (condition : JoinCondition) (hc : qualifier.lower = .ok condition) :
      (BinaryOp.join kind condition).HasLabel :=
    (qualifier.text_of_lower s.isTyped h hc).bind fun _ _ => trivial
  refine Yields.assuming labelled ?_
  cases qualifier with
  | absent => exact BinaryOp.isSound_natural
  | columns names => exact BinaryOp.isSound_natural
  | condition t =>
      apply (Term.lower_gives (Standard.IsStrict.term h) hP).map
      intro e he
      exact BinaryOp.isSound_theta he

/-- The operators of well-formed binary algebra nodes are sound. -/
theorem AlgebraBinary.operator_gives {op : AlgebraBinary} (h : op.meets s = true)
    (hP : Admits P op.origins) : Gives (BinaryOp.IsSound P) op.operator := by
  cases op with
  | theta condition =>
      have labelled (made : BinaryOp) (hmade : (theta condition).operator = .ok made) :=
        (theta condition).hasLabel_of_operator s.isTyped h hmade
      refine Yields.assuming labelled ?_
      apply (Term.lower_gives (Standard.IsStrict.term h) hP).map
      intro e he
      exact BinaryOp.isSound_theta he
  | outer side qualifier => exact (qualifier.lower_gives h hP side.joinKind).map fun _ hc => hc
  | _ => exact BinaryOp.isSound_of_plain trivial rfl nofun

theorem isPlaced_booleanOf {origin : Origin} (horigin : IsPlaced P origin.span) {operator : String}
    {left right : Expr} (hl : left.IsPlaced P) (hr : right.IsPlaced P) :
    (booleanOf origin operator left right).IsPlaced P := by
  intro part hpart
  simp only [booleanOf, Expr.walk, List.mem_cons] at hpart
  rcases hpart with rfl | hpart
  · exact horigin
  · split at hpart
    · cases hpart
    · simp only [Expr.walkArguments, Expr.walkArgument, List.append_nil, List.mem_append] at hpart
      rcases hpart with hpart | hpart
      · exact hl part hpart
      · exact hr part hpart

/-- The condition of a limit has the position of the limit throughout. -/
theorem isPlaced_of_limitCondition {limit offset : Value} {span : SourceSpan} {e : Expr}
    (hP : P span) (h : limitCondition limit offset (some span) = .ok e) : e.IsPlaced P := by
  have horigin : IsPlaced P (Origin.mk (some span) false).span := ⟨span, rfl, hP⟩
  have leaf (e : Expr) (hwalk : e.walk = [e]) (he : e.span = some span) : e.IsPlaced P := by
    intro part hpart
    rw [hwalk, List.mem_singleton] at hpart
    rw [hpart, he]
    exact horigin
  have comparison (operator : String) (v : Value) :
      (booleanOf ⟨some span, false⟩ operator (rowNumber ⟨some span, false⟩)
        (numberConstant ⟨some span, false⟩ v)).IsPlaced P :=
    isPlaced_booleanOf horigin (leaf _ (by simp [rowNumber, Expr.walk, Expr.walkArguments]) rfl)
      (leaf _ (by simp [numberConstant, Expr.walk]) rfl)
  unfold limitCondition at h
  split at h
  · cases h
    exact comparison _ _
  · obtain ⟨last, -, h⟩ := bind_eq_ok.mp h
    cases h
    exact isPlaced_booleanOf horigin (comparison _ _) (comparison _ _)

/-- Limits and offsets that are integers have a condition, with their position throughout. -/
theorem limitCondition_gives {limit offset : Value} (hl : limit.isInteger = true)
    (ho : offset.isInteger = true) {span : SourceSpan} (hP : P span) :
    Gives (Expr.IsPlaced P) (limitCondition limit offset (some span)) := by
  refine Yields.assuming (fun e he => isPlaced_of_limitCondition hP he) ?_
  exact .ite (fun _ => id) fun _ => (Value.add_gives hl ho).bind fun last _ => id

/-- The operators of well-formed unary SQL nodes are sound. -/
theorem SqlUnary.operator_gives {op : SqlUnary} (h : op.meets s = true) {origin : Origin}
    (horigin : IsPlaced P origin.span) (verbose : Bool) :
    Gives (UnaryOp.IsSound P) (op.operator origin verbose) := by
  have labelled (made : UnaryOp) (hmade : op.operator origin verbose = .ok made) : made.HasLabel :=
    op.hasLabel_of_operator hmade
  refine Yields.assuming labelled ?_
  cases op with
  | renameRelation relAlias =>
      exact fun _ => UnaryOp.isSound_renameRelation (Value.isHashable_of_isText h)
  | subquery relAlias =>
      exact fun _ => UnaryOp.isSound_renameRelation (Value.isHashable_of_isText h)
  | orderBy entries =>
      apply (lowerOrder_gives h).map
      intro keys _
      exact UnaryOp.isSound_orderBy
  | limit count offset =>
      simp only [SqlUnary.meets, Bool.and_eq_true] at h
      obtain ⟨span, hspan, hP⟩ := horigin
      simp only [SqlUnary.operator, Origin.require, hspan, ok_bind]
      refine ((limitCondition_gives h.1 h.2 hP).and fun e => hasText_of_limitCondition).bind ?_
      rintro condition ⟨hplaced, htext⟩
      have logged : Gives (fun _ => True) (loggedCondition verbose condition) :=
        .ite (fun _ => htext.discard) fun _ => trivial
      exact logged.bind fun _ _ => UnaryOp.isSound_selection hplaced

/-- The operators of well-formed binary SQL nodes are sound. -/
theorem SqlBinary.operator_gives {op : SqlBinary} (h : op.meets s = true)
    (hP : Admits P op.origins) : Gives (BinaryOp.IsSound P) op.operator := by
  cases op with
  | join kind qualifier => exact (qualifier.lower_gives h hP kind).map fun _ hc => hc
  | set operation keepsAll => cases operation <;> exact BinaryOp.isSound_of_plain trivial rfl nofun
  | _ => exact BinaryOp.isSound_of_plain trivial rfl nofun

/-! ### Statements -/

/-- The stage makes a sound operator with a position, or none at all. -/
def Stage.IsSound (P : SourceSpan → Prop) (stage : Stage) : Prop :=
  Gives (fun made => ∀ op ∈ made, op.IsSound P ∧ IsPlaced P stage.origin.span) stage.operator

namespace Clauses

variable {clauses : Clauses}

theorem filterStage_isSound {clause : Option ConditionClause}
    (h : clause.all (ConditionClause.meets s) = true)
    (hP : Admits P (clause.toList.flatMap ConditionClause.origins)) :
    (filterStage clause).IsSound P := by
  cases clause with
  | none => nofun
  | some clause =>
      simp only [Option.all_some, ConditionClause.meets, Bool.and_eq_true] at h
      simp only [Option.toList_some, List.flatMap_singleton, ConditionClause.origins, admits_cons]
        at hP
      have labelled (e : Expr) (he : clause.condition.lower = .ok e) :=
        hasLabel_selection s.isTyped h.2 he
      apply ((Term.lower_gives (Standard.IsStrict.term h.2) hP.2).and labelled).map
      intro e he op hop
      cases hop
      exact ⟨UnaryOp.isSound_selection he.1 he.2, isPlaced_of_meets h.1 hP.1⟩

theorem isGrouped_gives (hcount : clauses.aggregateCount.isInteger = true)
    (aggregates : List Aggregate) : Gives (fun _ => True) (clauses.isGrouped aggregates) := by
  unfold isGrouped
  cases clauses.groupBy with
  | some groups => trivial
  | none =>
      rcases Value.eq_of_isInteger hcount with ⟨b, hb⟩ | ⟨i, hi⟩
      · rw [hb]
        trivial
      · rw [hi]
        trivial

theorem groupBy_gives
    (h : clauses.groupBy.all (fun groups => groups.all (referenceMeets s)) = true) :
    Gives (fun _ => True) ((clauses.groupBy.getD []).mapM lowerColumn) := by
  refine (Yields.mapM (Q := fun _ => True) fun c hc => ?_).mono fun _ _ => trivial
  cases hgroupBy : clauses.groupBy with
  | none => simp [hgroupBy] at hc
  | some groups =>
      simp only [hgroupBy, Option.getD_some, Option.all_some, List.all_eq_true] at hc h
      exact lowerColumn_gives (h c hc)

theorem groupingOperator_gives (h : clauses.meets s = true) :
    Gives (fun made => ∀ op ∈ made, op.IsSound P) clauses.groupingOperator := by
  simp only [Clauses.meets, Bool.and_eq_true] at h
  obtain ⟨⟨⟨⟨⟨-, hitems⟩, -⟩, hgroups⟩, -⟩, hcount⟩ := h
  have labelled (made : Option UnaryOp) (hmade : clauses.groupingOperator = .ok made) :
      ∀ op ∈ made, op.HasLabel := by
    rintro op rfl
    exact hasLabel_grouping hitems hmade
  refine Yields.assuming labelled ?_
  refine (Yields.mapM fun call hcall =>
    call.lower_gives (meets_of_mem_aggregateCalls hitems hcall)).bind fun aggregates haggregates =>
      ?_
  refine (isGrouped_gives hcount aggregates).bind fun grouped _ =>
    .ite (fun _ => ?grouped) fun _ => ?ungrouped
  case ungrouped =>
    intro hlabel op hop
    cases hop
  apply (groupBy_gives hgroups).bind
  intro groups _ hlabel op hop
  have hlabel := hlabel op hop
  cases hop
  cases hempty : aggregates.isEmpty with
  | true =>
      simp only [hempty, if_true] at hlabel ⊢
      refine UnaryOp.isSound_projection (fun item hitem => ?_) hlabel
      obtain ⟨c, -, rfl⟩ := List.mem_map.mp hitem
      trivial
  | false =>
      simp only [hempty, Bool.false_eq_true, if_false] at hlabel ⊢
      exact UnaryOp.isSound_groupBy haggregates hlabel

theorem selectOperator_gives (h : clauses.select.items.all (SelectItem.meets s) = true)
    (hP : Admits P (clauses.select.items.flatMap SelectItem.origins)) :
    Gives (fun made => ∀ op ∈ made, op.IsSound P) clauses.selectOperator := by
  have labelled (made : Option UnaryOp) (hmade : clauses.selectOperator = .ok made) :
      ∀ op ∈ made, op.HasLabel := by
    rintro op rfl
    exact hasLabel_select s.isTyped h hmade
  refine Yields.assuming labelled ?_
  rw [List.all_eq_true] at h
  rw [admits_flatMap] at hP
  refine .ite (fun _ => nofun) ?_
  intro _
  refine (Yields.mapM fun item hitem => item.lower_gives (h item hitem) (hP item hitem)).map ?_
  intro columns hcolumns hlabel op hop
  have hlabel := hlabel op hop
  cases hop
  exact UnaryOp.isSound_projection hcolumns hlabel

theorem namingOperator_gives (h : clauses.select.items.all (SelectItem.meets s) = true) :
    Gives (fun made => ∀ op ∈ made, op.IsSound P) clauses.namingOperator := by
  rw [List.all_eq_true] at h
  apply (Yields.mapM fun item hitem => item.newName_gives (h item hitem)).bind
  intro named hnamed
  have keyed : ∀ r ∈ named.filterMap id, r.newName.isHashable = true := by
    intro r hr
    obtain ⟨made, hmade, hr⟩ := List.mem_filterMap.mp hr
    exact hnamed made hmade r hr
  cases hrenamings : named.filterMap id with
  | nil => nofun
  | cons r rest =>
      intro op hop
      cases hop
      exact UnaryOp.isSound_renameColumns fun r' hr' => keyed r' (hrenamings ▸ hr')

/-- The stages of a well-formed statement are sound. -/
theorem isSound_of_mem_stages (h : clauses.meets s = true) (hP : Admits P clauses.origins)
    {origin : Origin} (horigin : IsPlaced P origin.span) {stage : Stage}
    (hstage : stage ∈ clauses.stages origin) : stage.IsSound P := by
  have grouping := groupingOperator_gives (P := P) h
  simp only [Clauses.meets, Bool.and_eq_true] at h
  obtain ⟨⟨⟨⟨⟨hselect, hitems⟩, hfilter⟩, -⟩, hhaving⟩, -⟩ := h
  simp only [Clauses.origins, List.cons_append, admits_cons, admits_append] at hP
  obtain ⟨hselectP, ⟨hitemsP, hfilterP⟩, hhavingP⟩ := hP
  have selectPlaced := isPlaced_of_meets hselect hselectP
  simp only [stages, List.mem_cons, List.not_mem_nil, or_false] at hstage
  rcases hstage with rfl | rfl | rfl | rfl | rfl
  · exact filterStage_isSound hfilter hfilterP
  · exact grouping.mono fun made hmade op hop => ⟨hmade op hop, horigin⟩
  · exact filterStage_isSound hhaving hhavingP
  · apply (selectOperator_gives hitems hitemsP).mono
    intro made hmade op hop
    exact ⟨hmade op hop, selectPlaced⟩
  · apply (namingOperator_gives hitems).mono
    intro made hmade op hop
    exact ⟨hmade op hop, selectPlaced⟩

end Clauses

variable (settings : Settings)

theorem checkIf_yields {p : Plan} (h : p.IsSound P) :
    Yields P (fun _ => True) (checkIf settings p) :=
  .ite (fun _ => (Plan.schema_yields h).discard) fun _ => trivial

theorem logged_gives {p : Plan} (h : p.HasLabel) : Gives (fun _ => True) (logged settings p) :=
  gives_iff.mpr ⟨(), logged_eq_ok settings fun _ => h, trivial⟩

/-- A sound stage leads from sound plans to sound plans. -/
theorem Stage.run_yields {stage : Stage} (h : stage.IsSound P) {p : Plan} (hp : p.IsSound P) :
    Yields P (Plan.IsSound P) (stage.run settings p) := by
  have checked : Yields P (fun _ => True) (stage.check settings p) :=
    .ite (fun _ => checkIf_yields settings hp) fun _ => trivial
  refine checked.bind fun _ _ => (Gives.yields h).bind fun made hmade => ?_
  cases made with
  | none => exact hp
  | some op =>
      obtain ⟨hop, horigin⟩ := hmade op rfl
      apply ((Plan.isSoundBelow_unary hop hp {}).annotate horigin _ _).yields.bind
      intro plan hplan
      apply (logged_gives settings hplan.label).yields.bind
      intro _ _
      exact hplan

/-- The clauses of a well-formed statement lead from sound plans to sound plans. -/
theorem Clauses.lower_yields {clauses : Clauses} (h : clauses.meets s = true)
    (hP : Admits P clauses.origins) {origin : Origin} (horigin : IsPlaced P origin.span)
    {source : Plan} (hsource : source.IsSound P) :
    Yields P (Plan.IsSound P) (clauses.lower origin settings source).result := by
  rw [result_lower]
  apply (checkIf_yields settings hsource).bind
  intro _ _
  apply (logged_gives settings hsource.label).yields.bind
  intro _ _
  refine (Yields.foldlM hsource fun stage hstage p hp => ?_).bind fun plan hplan => ?_
  · exact stage.run_yields settings (isSound_of_mem_stages h hP horigin hstage) hp
  · rw [yields_ok]
    split
    · exact hplan
    · exact hplan.below _ hplan.root

/-! ### Queries -/

theorem isSoundBelow_relation {base : Relation} (h : base.isWellFormed = true) (notes : Notes) :
    (Plan.relation notes base).IsSoundBelow P := by
  simp only [Relation.isWellFormed, Bool.and_eq_true, Option.any_eq_true, List.all_eq_true] at h
  obtain ⟨hname, s, hs, hkeyed⟩ := h
  obtain ⟨name, hname⟩ := Value.eq_string_of_isText hname
  have labelled : Gives (fun _ => True) base.name.asText := by
    rw [hname]
    trivial
  exact fun _ hspan => ⟨hspan, labelled, s, hs, hkeyed⟩

theorem relationNamed_yields {catalog : Catalog} (hc : catalog.isWellFormed = true) {name : Value}
    (hname : name.isText = true) {origin : Origin} (horigin : IsPlaced P origin.span) :
    Yields P (Plan.IsSoundBelow P) (relationNamed catalog name origin.span) := by
  refine .ite (fun h => ?_) fun _ => ?_
  · rw [Value.isHashable_of_isText hname] at h
    cases h
  · obtain ⟨text, rfl⟩ := Value.eq_string_of_isText hname
    cases hfind : catalog.find? (.string text) with
    | none => exact isLocated_query horigin
    | some p =>
        obtain ⟨notes, base, rfl⟩ := Catalog.eq_relation_of_find? hfind
        obtain ⟨_, hmem⟩ := Catalog.mem_of_find? hfind
        exact isSoundBelow_relation (List.all_eq_true.mp hc _ hmem) notes

theorem aliased_gives {origin : Origin} (horigin : IsPlaced P origin.span) {relAlias : Value}
    (hrel : relAlias.isOptionalText = true) {p : Plan} (hp : p.IsSoundBelow P) :
    Gives (Plan.IsSoundBelow P) (aliased origin relAlias p) := by
  refine .ite (fun _ => ?_) fun _ => hp
  obtain ⟨span, hspan, hP⟩ := horigin
  simp only [Origin.require, hspan, ok_bind, yields_ok]
  have renamed := UnaryOp.isSound_renameRelation (P := P) (Value.isHashable_of_isOptionalText hrel)
  exact Plan.isSoundBelow_unary renamed (hp _ ⟨span, rfl, hP⟩) {}

section Nodes

variable {origin : Origin} {x y : Outcome Plan}

/-- A sound operator over a sound plan makes a sound plan. -/
theorem unary_yields (horigin : IsPlaced P origin.span) {op : UnaryOp} (hop : op.IsSound P)
    (hx : Yields P (Plan.IsSound P) x) (kind : String) (metadata : Members) :
    Yields P (Plan.IsSound P)
      (x.map (Plan.unary {} op) >>= fun p => p.annotate kind origin metadata none) := by
  apply (hx.map fun p hp => Plan.isSoundBelow_unary hop hp {}).bind
  intro p hp
  exact (hp.annotate horigin kind metadata).yields

/-- A sound operator over two sound plans makes a sound plan. -/
theorem binary_yields (horigin : IsPlaced P origin.span) {op : BinaryOp} (hop : op.IsSound P)
    (hx : Yields P (Plan.IsSound P) x) (hy : Yields P (Plan.IsSound P) y) (notes : Notes)
    (kind : String) (metadata : Members) :
    Yields P (Plan.IsSound P)
      ((x >>= fun p => y.map (Plan.binary notes op p)) >>= fun p =>
        p.annotate kind origin metadata none) := by
  have made : Yields P (Plan.IsSoundBelow P) (x >>= fun p => y.map (Plan.binary notes op p)) := by
    apply hx.bind
    intro p hp
    apply hy.map
    intro q hq
    exact Plan.isSoundBelow_binary hop hp hq notes
  apply made.bind
  intro p hp
  exact (hp.annotate horigin kind metadata).yields

end Nodes

/-- A well-formed SQL query is lowered to a sound plan, or a part of it is reported as faulty. -/
theorem Sql.lower_yields {q : Sql} (h : q.isWellFormed = true) {catalog : Catalog}
    (hc : catalog.isWellFormed = true) (hP : Admits P q.origins) :
    Yields P (Plan.IsSound P) (q.lower catalog settings).result := by
  induction q with
  | relation origin name relAlias =>
      simp only [isWellFormed, meets, Bool.and_eq_true] at h
      simp only [origins, admits_cons] at hP
      have placed := isPlaced_of_meets h.1.1 hP.1
      simp only [lower, Traced.result_bind, Traced.result_lift, result_lookUp]
      apply (relationNamed_yields hc h.1.2 placed).bind
      intro p hp
      apply (aliased_gives placed h.2 hp).yields.bind
      intro plan hplan
      exact (hplan.annotate placed _ _).yields
  | statement origin clauses source ih =>
      simp only [isWellFormed, meets, Bool.and_eq_true] at h
      simp only [origins, admits_cons, admits_append] at hP
      have placed := isPlaced_of_meets h.1.1 hP.1
      simp only [lower, Traced.result_bind, Traced.result_lift]
      apply (ih h.2 hP.2.2).bind
      intro p hp
      apply (clauses.lower_yields settings h.1.2 hP.2.1 placed hp).bind
      intro plan hplan
      exact (hplan.below.annotate placed _ _).yields
  | unary origin op child ih =>
      simp only [isWellFormed, meets, Bool.and_eq_true] at h
      simp only [origins, admits_cons] at hP
      have placed := isPlaced_of_meets h.1.1 hP.1
      obtain ⟨made, hmade, hop⟩ := gives_iff.mp (op.operator_gives h.1.2 placed settings.verbose)
      simp only [lower, Traced.result_bind, Traced.result_lift]
      rw [op.result_lower hmade]
      exact unary_yields placed hop (ih h.2 hP.2) _ _
  | binary origin op left right ihl ihr =>
      simp only [isWellFormed, meets, Bool.and_eq_true] at h
      simp only [origins, admits_cons, admits_append] at hP
      have placed := isPlaced_of_meets h.1.1.1 hP.1
      obtain ⟨made, hmade, hop⟩ := gives_iff.mp (op.operator_gives h.1.1.2 hP.2.1.1)
      simp only [lower, Traced.result_bind, Traced.result_lift]
      rw [op.result_lower hmade]
      exact binary_yields placed hop (ihl h.1.2 hP.2.1.2) (ihr h.2 hP.2.2) _ _ _

theorem appendRows_tuples (r : Relation) {schema : Schema} {rows : List (List Value)}
    (h : ∀ row ∈ rows, row.length = schema.size) :
    r.appendRows schema (rows.map Value.tuple) = ({ r with rows := r.rows ++ rows }, .ok ()) := by
  induction rows generalizing r with
  | nil => simp [Relation.appendRows]
  | cons row rest ih =>
      simp only [List.map_cons, Relation.appendRows, Value.items, h row (by simp), if_true]
      rw [ih _ fun row' hrow' => h row' (by simp [hrow'])]
      simp

/-- The column of an inline relation as a column of a schema. -/
def Table.adopted (table : Table) (c : TableColumn) : SchemaColumn :=
  ⟨c.name, if c.relAlias.isTruthy then c.relAlias else table.name, c.type⟩

theorem Table.relation_eq_ok {table : Table}
    (h : ∀ row ∈ table.rows, row.length = table.columns.length) :
    table.relation = .ok ⟨table.name, some ⟨table.columns.map table.adopted⟩, table.rows⟩ := by
  have columns : (table.columns.map fun c => SchemaColumn.mk c.name c.relAlias c.type).map
      (fun col => if true && !col.relAlias.isTruthy then col.withAlias table.name else col) =
        table.columns.map table.adopted := by
    rw [List.map_map]
    refine List.map_congr_left fun c _ => ?_
    cases hrel : c.relAlias.isTruthy <;> simp [Table.adopted, SchemaColumn.withAlias, hrel]
  simp only [Table.relation, Relation.setSchema, columns, Relation.addRows, Value.items]
  rw [appendRows_tuples _ fun row hrow => by simpa [Schema.size] using h row hrow]
  rfl

/-- An inline relation whose rows fit its columns is a relation with a schema. -/
theorem Table.relation_gives {table : Table} (h : table.meets s = true) :
    Gives (fun base => base.isWellFormed = true) table.relation := by
  simp only [Table.meets, Bool.and_eq_true, List.all_eq_true, beq_iff_eq] at h
  obtain ⟨⟨hname, hcolumns⟩, hrows⟩ := h
  rw [relation_eq_ok hrows]
  simp only [yields_ok, Relation.isWellFormed, hname, Option.any_some, Bool.true_and, List.all_map,
    List.all_eq_true]
  intro c hc
  obtain ⟨⟨hcname, hrel⟩, -⟩ := hcolumns c hc
  have keyed : (table.adopted c).relAlias.isHashable = true := by
    unfold Table.adopted
    split
    · exact Value.isHashable_of_isOptionalText hrel
    · exact Value.isHashable_of_isText hname
  have named := Standard.isHashable_of_name hcname
  simp only [Function.comp_apply, keyed, Bool.and_true]
  exact named

/-- A well-formed algebra query is lowered to a sound plan, or a part of it is reported as faulty.
-/
theorem Algebra.lower_yields {q : Algebra} (h : q.isWellFormed = true) {catalog : Catalog}
    (hc : catalog.isWellFormed = true) (hP : Admits P q.origins) (verbose : Bool) :
    Yields P (Plan.IsSound P) (q.lower catalog verbose).result := by
  induction q with
  | relation header name =>
      simp only [isWellFormed, meets, Bool.and_eq_true] at h
      simp only [origins, admits_cons] at hP
      have placed := isPlaced_of_meets h.1 hP.1
      simp only [lower, Traced.result_bind, Traced.result_lift, result_lookUp]
      apply (relationNamed_yields hc h.2 placed).bind
      intro p hp
      exact (hp.annotate placed _ _).yields
  | table header inline =>
      simp only [isWellFormed, meets, Bool.and_eq_true] at h
      simp only [origins, admits_cons] at hP
      have placed := isPlaced_of_meets h.1 hP.1
      obtain ⟨base, hbase, hwell⟩ := gives_iff.mp (inline.relation_gives h.2)
      obtain ⟨span, hspan, -⟩ := id placed
      simp only [lower, Traced.result_bind, Traced.result_lift, inline.result_lower, hbase,
        Origin.require, hspan, ok_bind]
      exact ((isSoundBelow_relation hwell _).annotate placed _ _).yields
  | unary header op child ih =>
      simp only [isWellFormed, meets, Bool.and_eq_true] at h
      simp only [origins, admits_cons, admits_append] at hP
      have placed := isPlaced_of_meets h.1.1 hP.1
      obtain ⟨made, hmade, hop⟩ := gives_iff.mp (op.operator_gives h.1.2 hP.2.1)
      simp only [lower, Traced.result_bind, Traced.result_lift]
      rw [op.result_lower hmade]
      exact unary_yields placed hop (ih h.2 hP.2.2) _ _
  | binary header op left right ihl ihr =>
      simp only [isWellFormed, meets, Bool.and_eq_true] at h
      simp only [origins, admits_cons, admits_append] at hP
      have placed := isPlaced_of_meets h.1.1.1 hP.1
      obtain ⟨made, hmade, hop⟩ := gives_iff.mp (op.operator_gives h.1.1.2 hP.2.1.1)
      simp only [lower, Traced.result_bind, Traced.result_lift]
      rw [op.result_lower hmade]
      exact binary_yields placed hop (ihl h.1.2 hP.2.1.2) (ihr h.2 hP.2.2) _ _ _

end Query

namespace LoadedQuery

/-- The grammar that the query is written in. -/
def grammar : LoadedQuery → Grammar
  | .sql _ => .sql
  | .algebra _ => .algebra

/-- The query is well formed by the rules of its grammar. -/
def isWellFormed : LoadedQuery → Bool
  | .sql q => q.isWellFormed
  | .algebra q => q.isWellFormed

/-- The origins of all nodes, clauses and expressions of the query. -/
def origins : LoadedQuery → List Origin
  | .sql q => q.origins
  | .algebra q => q.origins

/-- Some node, clause or expression of the query has the position. -/
def HasPosition (q : LoadedQuery) (span : SourceSpan) : Prop :=
  ∃ o ∈ q.origins, o.span = some span

theorem admits_hasPosition (q : LoadedQuery) : Query.Admits q.HasPosition q.origins :=
  fun o ho _ hs => ⟨o, ho, hs⟩

theorem verifiedIf_gives {P : SourceSpan → Prop} {p : Plan} (h : p.IsSound P) (wanted : Bool) :
    Gives (Plan.IsSound P) (p.verifiedIf wanted) :=
  gives_iff.mpr ⟨p, Plan.verifiedIf_eq_ok.mpr ⟨fun _ => h.verifyPositions, rfl⟩, h⟩

/-- A well-formed query over relations with schemas is compiled to a sound plan, or one of its parts
is reported as faulty. -/
theorem compile_isSound {q : LoadedQuery} (h : q.isWellFormed = true) {catalog : Catalog}
    (hc : catalog.isWellFormed = true) (settings : Settings) (isNode : Bool) :
    Yields q.HasPosition (Plan.IsSound q.HasPosition)
      (q.grammar.compile isNode catalog settings q).result := by
  have admitted := q.admits_hasPosition
  cases q with
  | sql q =>
      simp only [grammar, Grammar.compile, Query.Sql.compile, Traced.result_bind,
        Traced.result_lift]
      apply (q.lower_yields settings h hc admitted).bind
      intro p hp
      exact (verifiedIf_gives hp _).yields
  | algebra q =>
      simp only [grammar, Grammar.compile, Query.Algebra.compile, Traced.result_bind,
        Traced.result_lift]
      apply (q.lower_yields h hc admitted settings.verbose).bind
      intro p hp
      exact (verifiedIf_gives hp _).yields

/-- Compiling a well-formed query over relations with schemas succeeds or reports a faulty query at
the position of a node, clause or expression. So do the derivation of the schema of its plan and the
check of its plan, which never finds that the nodes of the plan are no tree, wherever they are
stored. -/
theorem compile_located {q : LoadedQuery} (h : q.isWellFormed = true) {catalog : Catalog}
    (hc : catalog.isWellFormed = true) (settings : Settings) (isNode : Bool) :
    Yields q.HasPosition
      (fun p => Yields q.HasPosition (fun _ => True) p.schema ∧
        Yields q.HasPosition (fun _ => True) p.check ∧
        ∀ s : Store, Yields q.HasPosition (fun _ => True) ((s.insert p).2.check (s.insert p).1))
      (q.grammar.compile isNode catalog settings q).result := by
  apply (compile_isSound h hc settings isNode).mono
  intro p hp
  have derived := Plan.schema_yields hp
  have checked : Yields q.HasPosition (fun _ => True) p.check := derived.discard
  refine ⟨derived.mono fun _ _ => trivial, checked, fun s => ?_⟩
  rw [s.check_insert]
  exact checked

end LoadedQuery

/-- A statement over `R(a, b)` that asks for a column `c`. -/
def Query.Sample.dangling : LoadedQuery :=
  .sql (statement [.column origin (.string "c") .null .null])

/-- The missing column is reported at the position of the statement. -/
theorem Query.Sample.compile_located_dangling :
    dangling.isWellFormed = true ∧ catalog.isWellFormed = true ∧ ∃ p fault,
      (dangling.grammar.compile false catalog {} dangling).result = .ok p ∧
      p.schema = .error fault ∧ fault.IsLocated dangling.HasPosition :=
  ⟨by decide, by decide, _, _, rfl, rfl,
    (@LoadedQuery.compile_located dangling (by decide) catalog (by decide) {} false).1⟩

end LogicalPlan
