import LogicalPlan.Proofs.Lowering.Located

/-!
# SQL inside of relational algebra

Every SQL query can be written as a relational algebra query: a statement becomes its FROM clause
under one algebra node for each of its stages, and a limit becomes a selection by row number. Both
lowerings agree on a query and its embedding: they make the same plan up to notes, or both fail.

## Implementation notes

An inner join on listed columns has no counterpart in the algebra, so such queries are not embedded.
The lowerings may fail for different reasons, since they visit the parts of a query in different
orders. On well-formed queries they fail only at missing relations, and then with the same fault.
-/

namespace LogicalPlan

open Outcome

namespace Query

/-! ### The embedding -/

/-- The number of the current row, as a query writes it. -/
def Term.rowNumber (origin : Origin) : Term :=
  .mk origin (.string "number") (.string "rownum") []

/-- A constant number, as a query writes it. -/
def Term.number (origin : Origin) (v : Value) : Term :=
  .mk origin (.string "number") Expr.constantName [.literal v]

/-- A truth value computed from two expressions, as a query writes it. -/
def Term.boolean (origin : Origin) (operator : String) (left right : Term) : Term :=
  .mk origin (.string "boolean") (.string operator) [.nested left, .nested right]

/-- The condition of a limit, as a query writes it. -/
def Term.limit (count offset : Value) (span : Option SourceSpan) : Term :=
  let origin : Origin := ⟨span, false⟩
  let above := boolean origin ">" (rowNumber origin) (number origin offset)
  if isLimitAll count then above
  else
    match count.add offset with
    | .ok last =>
      boolean origin "and" above (boolean origin "<=" (rowNumber origin) (number origin last))
    | .error _ => above

/-- The algebra operator in place of a unary SQL operator. -/
def SqlUnary.embed (origin : Origin) : SqlUnary → AlgebraUnary
  | .renameRelation relAlias | .subquery relAlias => .renameRelation relAlias
  | .orderBy entries => .orderBy entries
  | .limit count offset => .selection (.limit count offset origin.span)

/-- The algebra operator in place of a binary SQL operator. -/
def SqlBinary.embed : SqlBinary → AlgebraBinary
  | .join .inner (.condition t) => .theta t
  | .join .inner _ => .natural
  | .join .leftOuter qualifier => .outer .left qualifier
  | .join .rightOuter qualifier => .outer .right qualifier
  | .join .fullOuter qualifier => .outer .full qualifier
  | .cross => .cross
  | .natural => .natural
  | .set .union _ => .union
  | .set .intersect _ => .intersect
  | .set .difference _ => .difference

/-- The operator has a counterpart: it is no inner join on listed columns. -/
def SqlBinary.isEmbeddable : SqlBinary → Bool
  | .join .inner (.columns _) => false
  | _ => true

/-- The projection entry in place of an entry of a SELECT list. -/
def SelectItem.embed : SelectItem → ProjectionEntry
  | .column origin name relAlias _ => .column ⟨origin, name, relAlias⟩
  | .aggregate call => .column ⟨call.origin, call.name, .null⟩
  | .computed c => .computed c

/-- The renaming in place of the new name of an entry of a SELECT list. -/
def SelectItem.embedName : SelectItem → Option ColumnRenaming
  | .column origin name relAlias label =>
    if label.isTruthy then some ⟨some ⟨origin, name, relAlias⟩, label⟩ else none
  | _ => none

/-- An algebra operator with its origin, which a stage of a statement can stand for. -/
abbrev Layer := Option (Origin × AlgebraUnary)

namespace Clauses

/-- The selection of a WHERE or HAVING clause. -/
def filterLayer (clause : Option ConditionClause) : Layer :=
  clause.map fun clause => (clause.origin, .selection clause.condition)

/-- The statement has a GROUP BY clause or counts aggregates. -/
def asksForGroups (clauses : Clauses) : Bool :=
  clauses.groupBy.isSome || decide (0 < clauses.aggregateCount.toInt?.getD 0)

/-- The grouping of a statement. -/
def groupingLayer (clauses : Clauses) (origin : Origin) : Layer :=
  let calls := SelectItem.aggregateCalls clauses.select.items
  let groups := clauses.groupBy.getD []
  if !calls.isEmpty then some (origin, .groupBy groups calls)
  else if clauses.asksForGroups then
    some (origin, .projection ((groups.filterMap id).map ProjectionEntry.column))
  else none

/-- The projection of a SELECT list, unless the list keeps everything. -/
def selectLayer (clauses : Clauses) : Layer :=
  if SelectItem.isEverything clauses.select.items then none
  else some (clauses.select.origin, .projection (clauses.select.items.map SelectItem.embed))

/-- The new names of a SELECT list, if there are any. -/
def namingLayer (clauses : Clauses) : Layer :=
  match clauses.select.items.filterMap SelectItem.embedName with
  | [] => none
  | renamings => some (clauses.select.origin, .renameColumns renamings)

/-- The layers of a statement from inside out. -/
def layers (clauses : Clauses) (origin : Origin) : List Layer :=
  [filterLayer clauses.filter, clauses.groupingLayer origin, filterLayer clauses.having,
    clauses.selectLayer, clauses.namingLayer]

end Clauses

/-- The query under a layer. -/
def Algebra.wrap (q : Algebra) : Layer → Algebra
  | none => q
  | some (origin, op) => .unary ⟨origin, []⟩ op q

namespace Sql

/-- The algebra query in place of a SQL query. -/
def embed : Sql → Algebra
  | .relation origin name relAlias =>
    (Algebra.relation ⟨origin, []⟩ name).wrap
      (if relAlias.isTruthy then some (origin, .renameRelation relAlias) else none)
  | .statement origin clauses source => (clauses.layers origin).foldl Algebra.wrap source.embed
  | .unary origin op child => .unary ⟨origin, []⟩ (op.embed origin) child.embed
  | .binary origin op left right => .binary ⟨origin, []⟩ op.embed left.embed right.embed

/-- No inner join in the query lists its columns. -/
def isEmbeddable : Sql → Bool
  | .relation _ _ _ => true
  | .statement _ _ source => source.isEmbeddable
  | .unary _ _ child => child.isEmbeddable
  | .binary _ op left right => op.isEmbeddable && left.isEmbeddable && right.isEmbeddable

end Sql

/-! ### Operators of embedded nodes -/

theorem Term.lower_boolean (origin : Origin) {operator : String} (h : operator ≠ "constant")
    (left right : Term) :
    (Term.boolean origin operator left right).lower = (do
      let left ← left.lower
      let right ← right.lower
      .ok (booleanOf origin operator left right)) := by
  simp [Term.boolean, Term.lower, Term.lowerArguments, Term.lowerArgument, Value.isHashable,
    supportedTypes, Expr.constantName, h, booleanOf, map_eq_bind]

@[simp] theorem Term.lower_rowNumber (origin : Origin) :
    (Term.rowNumber origin).lower = .ok (LogicalPlan.rowNumber origin) := by
  simp [Term.rowNumber, Term.lower, Term.lowerArguments, Value.isHashable, supportedTypes,
    Expr.constantName, LogicalPlan.rowNumber]

@[simp] theorem Term.lower_number (origin : Origin) (v : Value) :
    (Term.number origin v).lower = .ok (numberConstant origin v) := by
  simp [Term.number, Term.lower, Term.literalOf, Value.isHashable, supportedTypes,
    Expr.constantName, numberConstant]

/-- The written condition of a limit is lowered to the condition of the limit. -/
theorem Term.lower_limit {count offset : Value} (hc : count.isInteger = true)
    (ho : offset.isInteger = true) (span : Option SourceSpan) :
    (Term.limit count offset span).lower = limitCondition count offset span := by
  obtain ⟨last, hlast, -⟩ := gives_iff.mp (Value.add_gives hc ho)
  simp only [Term.limit, limitCondition, hlast, ok_bind]
  split
  · simp [lower_boolean]
  · simp [lower_boolean]

theorem SqlUnary.operator_embed {op : SqlUnary} (h : op.meets .typed = true) {origin : Origin}
    (horigin : origin.span.isSome = true) (verbose : Bool) :
    (op.embed origin).operator = op.operator origin verbose := by
  cases op with
  | renameRelation relAlias => rfl
  | subquery relAlias => rfl
  | orderBy entries => rfl
  | limit count offset =>
      simp only [SqlUnary.meets, Bool.and_eq_true] at h
      obtain ⟨span, hspan⟩ := Option.isSome_iff_exists.mp horigin
      simp only [SqlUnary.embed, AlgebraUnary.operator, SqlUnary.operator, Origin.require, hspan,
        ok_bind, Term.lower_limit h.1 h.2, map_eq_bind]
      cases hcondition : limitCondition count offset (some span) with
      | error fault => rfl
      | ok condition =>
          have text := hasText_of_limitCondition hcondition
          have logged : loggedCondition verbose condition = .ok () := by
            unfold loggedCondition
            split
            · exact discard_eq_ok.mpr (Gives.exists_ok text)
            · rfl
          simp only [ok_bind, logged]

theorem SqlBinary.operator_embed {op : SqlBinary} (h : op.isEmbeddable = true) :
    op.embed.operator = op.operator := by
  cases op with
  | join kind qualifier =>
      cases kind with
      | inner =>
          cases qualifier with
          | absent => rfl
          | columns names => cases h
          | condition t =>
              simp [SqlBinary.embed, AlgebraBinary.operator, SqlBinary.operator,
                JoinQualifier.lower, map_eq_bind]
      | leftOuter => rfl
      | rightOuter => rfl
      | fullOuter => rfl
  | cross => rfl
  | natural => rfl
  | set operation keepsAll => cases operation <;> rfl

/-- The operator of a layer, if there is one. -/
def Layer.operator : Layer → Outcome (Option UnaryOp)
  | none => .ok none
  | some (_, op) => op.operator.map some

/-- The layer stands for the stage. -/
structure Layer.StandsFor (layer : Layer) (stage : Stage) : Prop where
  operator : layer.operator = stage.operator
  origin : ∀ origin op, layer = some (origin, op) → stage.origin = origin

namespace Clauses

theorem filterLayer_standsFor (clause : Option ConditionClause) :
    (filterLayer clause).StandsFor (filterStage clause) where
  operator := by
    cases clause with
    | none => rfl
    | some clause =>
        simp [filterLayer, Layer.operator, filterStage, AlgebraUnary.operator, map_eq_bind]
  origin origin op h := by
    cases clause with
    | none => cases h
    | some clause =>
        cases h
        rfl

theorem lower_embed (item : SelectItem) : item.embed.lower = item.lower := by
  cases item <;> rfl

theorem selectLayer_standsFor (clauses : Clauses) :
    clauses.selectLayer.StandsFor
      ⟨"SelectClause", clauses.select.origin, false, clauses.selectOperator⟩ where
  operator := by
    unfold selectLayer selectOperator
    split
    · rfl
    · have lowered : ProjectionEntry.lower ∘ SelectItem.embed = SelectItem.lower :=
        funext lower_embed
      simp [Layer.operator, AlgebraUnary.operator, List.mapM_map, lowered, map_eq_bind]
  origin origin op h := by
    unfold selectLayer at h
    split at h
    · cases h
    · cases h
      rfl

theorem newName_eq (item : SelectItem) :
    item.newName =
      match item.embedName with
      | none => .ok none
      | some r => r.lower.map some := by
  cases item with
  | column origin name relAlias label =>
      simp only [SelectItem.newName, SelectItem.embedName]
      cases label.isTruthy with
      | false => rfl
      | true => simp [ColumnRenaming.lower, lowerColumn, ColumnRef.lower, map_eq_bind]
  | aggregate call => rfl
  | computed c => rfl

/-- The renamings of a SELECT list, with and without the entries that get no new name. -/
theorem mapM_newName (items : List SelectItem) :
    (items.mapM SelectItem.newName).map (List.filterMap id) =
      (items.filterMap SelectItem.embedName).mapM ColumnRenaming.lower := by
  induction items with
  | nil => rfl
  | cons item items ih =>
      rw [map_eq_bind] at ih ⊢
      rw [List.mapM_cons, newName_eq]
      cases hname : item.embedName with
      | none =>
          rw [List.filterMap_cons_none hname, ← ih]
          simp
      | some r =>
          rw [List.filterMap_cons_some hname, List.mapM_cons, ← ih]
          simp [map_eq_bind]

theorem namingOperator_eq (clauses : Clauses) :
    clauses.namingOperator = (do
      match ← (clauses.select.items.filterMap SelectItem.embedName).mapM ColumnRenaming.lower with
      | [] => .ok none
      | renamings => .ok (some (.renameColumns renamings))) := by
  rw [← mapM_newName, map_eq_bind, bind_assoc]
  rfl

theorem namingLayer_standsFor (clauses : Clauses) :
    clauses.namingLayer.StandsFor
      ⟨"SelectClause", clauses.select.origin, false, clauses.namingOperator⟩ where
  operator := by
    unfold namingLayer
    rw [namingOperator_eq]
    cases clauses.select.items.filterMap SelectItem.embedName with
    | nil => rfl
    | cons r rest =>
        simp only [Layer.operator, AlgebraUnary.operator, List.mapM_cons, map_eq_bind, bind_assoc,
          pure_eq, ok_bind]
  origin origin op h := by
    unfold namingLayer at h
    split at h
    · cases h
    · cases h
      rfl

theorem isGrouped_eq_ok {clauses : Clauses} (hcount : clauses.aggregateCount.isInteger = true)
    (aggregates : List Aggregate) :
    clauses.isGrouped aggregates = .ok (clauses.asksForGroups || !aggregates.isEmpty) := by
  unfold isGrouped asksForGroups
  cases clauses.groupBy with
  | some groups => rfl
  | none =>
      rcases Value.eq_of_isInteger hcount with ⟨b, hb⟩ | ⟨i, hi⟩
      · simp [hb, Value.isPositive, Value.toInt?]
      · simp [hi, Value.isPositive, Value.toInt?]

theorem mapM_lowerColumn {s : Standard} {groups : List (Option ColumnRef)}
    (h : groups.all (referenceMeets s) = true) :
    ((groups.filterMap id).map ProjectionEntry.column).mapM ProjectionEntry.lower =
      (groups.mapM lowerColumn).map (List.map ProjectionItem.column) := by
  induction groups with
  | nil => rfl
  | cons c groups ih =>
      simp only [List.all_cons, Bool.and_eq_true] at h
      cases c with
      | none => cases h.1
      | some c =>
          rw [map_eq_bind] at ih ⊢
          have kept : (some c :: groups).filterMap id = c :: groups.filterMap id := rfl
          rw [kept, List.map_cons, List.mapM_cons, ih h.2, List.mapM_cons]
          simp [ProjectionEntry.lower, lowerColumn, map_eq_bind]

theorem groupingLayer_standsFor {s : Standard} {clauses : Clauses} (h : clauses.meets s = true)
    (origin : Origin) :
    (clauses.groupingLayer origin).StandsFor
      ⟨"Statement", origin, false, clauses.groupingOperator⟩ where
  operator := by
    simp only [Clauses.meets, Bool.and_eq_true] at h
    obtain ⟨⟨⟨-, hgroups⟩, -⟩, hcount⟩ := h
    have groups : (clauses.groupBy.getD []).all (referenceMeets s) = true := by
      cases hgroupBy : clauses.groupBy with
      | none => rfl
      | some groups => simpa [hgroupBy] using hgroups
    unfold groupingLayer groupingOperator
    cases hcalls : SelectItem.aggregateCalls clauses.select.items with
    | nil =>
        simp only [List.isEmpty_nil, Bool.not_true, Bool.false_eq_true, if_false, List.mapM_nil,
          pure_eq, ok_bind, isGrouped_eq_ok hcount, Bool.or_false]
        cases clauses.asksForGroups with
        | false => rfl
        | true =>
            simp only [Layer.operator, AlgebraUnary.operator, mapM_lowerColumn groups, map_eq_bind,
              bind_assoc, ok_bind, if_true]
    | cons call calls =>
        simp [Layer.operator, AlgebraUnary.operator, isGrouped_eq_ok hcount, map_eq_bind]
  origin origin' op h := by
    unfold groupingLayer at h
    simp only at h
    split at h
    · cases h
      rfl
    · split at h
      · cases h
        rfl
      · cases h

/-- The layers of a statement stand for its stages. -/
theorem layers_standFor {s : Standard} {clauses : Clauses} (h : clauses.meets s = true)
    (origin : Origin) :
    List.Forall₂ Layer.StandsFor (clauses.layers origin) (clauses.stages origin) := by
  unfold layers stages
  exact .cons (filterLayer_standsFor _) <| .cons (groupingLayer_standsFor h origin) <|
    .cons (filterLayer_standsFor _) <| .cons (selectLayer_standsFor _) <|
    .cons (namingLayer_standsFor _) .nil

end Clauses

/-! ### Agreement of lowerings -/

/-- Both outcomes are the same plan up to notes, or both are faults, which are the same faults if
`exact` holds. -/
def Agree (exact : Prop) : Outcome Plan → Outcome Plan → Prop
  | .ok p, .ok q => p.unnoted = q.unnoted
  | .error fault, .error fault' => exact → fault = fault'
  | _, _ => False

namespace Agree

variable {S : Prop} {x y : Outcome Plan}

theorem refl (x : Outcome Plan) : Agree S x x := by
  cases x with
  | error fault => exact fun _ => rfl
  | ok p => exact Eq.refl p.unnoted

/-- Steps on one side that only change notes do not matter. -/
theorem renote {f : Plan → Outcome Plan} (h : Agree S x y)
    (hf : ∀ p, ∃ q, f p = .ok q ∧ q.unnoted = p.unnoted) : Agree S (x >>= f) y := by
  cases x with
  | error fault => exact h
  | ok p =>
      obtain ⟨q, hq, hunnoted⟩ := hf p
      rw [ok_bind, hq]
      cases y with
      | error fault => exact h
      | ok r => exact hunnoted.trans h

/-- Lowerings that both need an outcome fail with it. -/
theorem of_error {α : Type} {made : Outcome α} {fault : Fault} (hmade : made = .error fault)
    (hx : ∀ p, x = .ok p → ∃ a, made = .ok a) (hy : ∀ p, y = .ok p → ∃ a, made = .ok a)
    (hS : S → ∃ a, made = .ok a) : Agree S x y := by
  have failed : ¬∃ a, made = .ok a := by simp [hmade]
  cases x with
  | ok p => exact absurd (hx p rfl) failed
  | error fault =>
      cases y with
      | ok p => exact absurd (hy p rfl) failed
      | error fault' => exact fun hexact => absurd (hS hexact) failed

theorem bind {f g : Plan → Outcome Plan} (h : Agree S x y)
    (hf : ∀ p q, p.unnoted = q.unnoted → Agree S (f p) (g q)) : Agree S (x >>= f) (y >>= g) := by
  cases x with
  | error fault =>
      cases y with
      | error fault' => exact h
      | ok q => cases h
  | ok p =>
      cases y with
      | error fault => cases h
      | ok q => exact hf p q h

theorem annotate {origin : Origin} (horigin : S → origin.span.isSome = true) {p q : Plan}
    (h : p.unnoted = q.unnoted) (kind kind' : String) (metadata metadata' : Members) :
    Agree S (p.annotate kind origin metadata none) (q.annotate kind' origin metadata' none) := by
  unfold Plan.annotate Origin.require
  cases hspan : origin.span with
  | none =>
      intro hS
      simp [hspan] at horigin
      exact absurd hS horigin
  | some span => simpa [Agree] using h

theorem unary (h : Agree S x y) (made : UnaryOp) (notes notes' : Notes) :
    Agree S (x.map (Plan.unary notes made)) (y.map (Plan.unary notes' made)) := by
  rw [map_eq_bind, map_eq_bind]
  apply h.bind
  intro p q hpq
  simpa [Agree, Plan.unnoted] using hpq

end Agree

variable {S : Prop} {catalog : Catalog} {settings : Settings}

theorem Layer.StandsFor.isPlaced {layer : Layer} {stage : Stage} (h : layer.StandsFor stage)
    (hsound : stage.IsSound fun _ => True) {origin : Origin} {op : AlgebraUnary}
    (hlayer : layer = some (origin, op)) {made : UnaryOp}
    (hmade : stage.operator = .ok (some made)) :
    origin.span.isSome = true := by
  obtain ⟨_, hmade', hop⟩ := gives_iff.mp hsound
  cases hmade.symm.trans hmade'
  obtain ⟨span, hspan, -⟩ := (hop made rfl).2
  rw [← h.origin origin op hlayer, hspan]
  rfl

/-- A stage and its layer lead from plans that agree to plans that agree. -/
theorem Stage.run_agree (hcheck : settings.checkSchemas = false) {stage : Stage} {layer : Layer}
    (hfor : layer.StandsFor stage)
    (hlabel : ∀ op, stage.operator = .ok (some op) → op.HasLabel)
    (hS : S → stage.IsSound fun _ => True) {x : Outcome Plan} {q : Algebra} {verbose : Bool}
    (h : Agree S x (q.lower catalog verbose).result) :
    Agree S (x >>= stage.run settings) ((q.wrap layer).lower catalog verbose).result := by
  have hoperator := hfor.operator
  match layer with
  | none =>
      rw [funext (Stage.run_eq_ok hcheck hoperator.symm),
        show (x >>= Except.ok) = x from bind_pure x]
      exact h
  | some (origin, op) =>
      have horigin := hfor.origin origin op rfl
      simp only [Layer.operator] at hoperator
      simp only [Algebra.wrap, Algebra.lower, Header.annotate, Traced.result_bind,
        Traced.result_lift]
      cases hmade : op.operator with
      | error fault =>
          have failed : stage.operator = .error fault := by
            rw [← hoperator, hmade]
            rfl
          refine .of_error failed (fun p hp => ?_) (fun p hp => ?_) fun hexact => ?_
          · obtain ⟨_, -, hp⟩ := bind_eq_ok.mp hp
            exact stage.exists_operator hp
          · obtain ⟨_, hlower, -⟩ := bind_eq_ok.mp hp
            obtain ⟨made, hmade⟩ := op.exists_operator hlower
            exact ⟨some made, by rw [← hoperator, hmade]; rfl⟩
          · exact Gives.exists_ok (hS hexact)
      | ok made =>
          have succeeded : stage.operator = .ok (some made) := by
            rw [← hoperator, hmade]
            rfl
          have running := Stage.run_eq_annotate hcheck succeeded (hlabel made succeeded)
          rw [op.result_lower hmade, funext running, horigin]
          have wrapped := h.unary made {} {}
          rw [map_eq_bind] at wrapped
          have annotated := wrapped.bind fun p q hpq =>
            Agree.annotate (fun hexact => hfor.isPlaced (hS hexact) rfl succeeded) hpq stage.kind
              op.kindName [] []
          rwa [bind_assoc] at annotated

/-- The stages of a statement and its layers lead from plans that agree to plans that agree. -/
theorem Stage.foldlM_agree (hcheck : settings.checkSchemas = false) {stages : List Stage}
    {layers : List Layer} (hfor : List.Forall₂ Layer.StandsFor layers stages)
    (hlabel : ∀ stage ∈ stages, ∀ op, stage.operator = .ok (some op) → op.HasLabel)
    (hS : S → ∀ stage ∈ stages, stage.IsSound fun _ => True) {x : Outcome Plan} {q : Algebra}
    {verbose : Bool} (h : Agree S x (q.lower catalog verbose).result) :
    Agree S (x >>= fun p => stages.foldlM (Stage.run settings) p)
      ((layers.foldl Algebra.wrap q).lower catalog verbose).result := by
  induction hfor generalizing x q with
  | nil =>
      simp only [List.foldlM_nil]
      rw [bind_pure]
      exact h
  | @cons layer stage layers stages hfirst _ ih =>
      have first := stage.run_agree hcheck hfirst (hlabel stage (by simp))
        (fun hexact => hS hexact stage (by simp)) h
      have rest := ih (fun stage' hstage => hlabel stage' (by simp [hstage]))
        (fun hexact stage' hstage => hS hexact stage' (by simp [hstage])) first
      simp only [List.foldlM_cons]
      rwa [bind_assoc] at rest

theorem SqlUnary.lower_agree {op : SqlUnary} (ht : op.meets .typed = true) {origin : Origin}
    (horigin : origin.span.isSome = true) (hS : S → op.meets .strict = true) {x y : Traced Plan}
    (h : Agree S x.result y.result) :
    Agree S (op.lower x origin settings).result ((op.embed origin).lower y).result := by
  have same := op.operator_embed ht horigin settings.verbose
  cases hmade : op.operator origin settings.verbose with
  | error fault =>
      refine .of_error hmade (fun p => op.exists_operator) (fun p hp => ?_) fun hexact => ?_
      · rw [← same]
        exact (op.embed origin).exists_operator hp
      · obtain ⟨span, hspan⟩ := Option.isSome_iff_exists.mp horigin
        have placed : IsPlaced (fun _ => True) origin.span := ⟨span, hspan, trivial⟩
        exact Gives.exists_ok (op.operator_gives (hS hexact) placed settings.verbose)
  | ok made =>
      rw [op.result_lower hmade, (op.embed origin).result_lower (same.trans hmade)]
      exact h.unary made {} {}

theorem SqlBinary.lower_agree {op : SqlBinary} (he : op.isEmbeddable = true) {origin : Origin}
    (hS : S → op.meets .strict = true) {x x' y y' : Traced Plan} (h : Agree S x.result y.result)
    (h' : Agree S x'.result y'.result) :
    Agree S (op.lower x x' origin).result (op.embed.lower y y').result := by
  have same := op.operator_embed he
  cases hmade : op.operator with
  | error fault =>
      refine .of_error hmade (fun p => op.exists_operator) (fun p hp => ?_) fun hexact => ?_
      · rw [← same]
        exact op.embed.exists_operator hp
      · have admitted : Admits (fun _ => True) op.origins := fun _ _ _ _ => trivial
        exact Gives.exists_ok (op.operator_gives (hS hexact) admitted)
  | ok made =>
      rw [op.result_lower hmade, op.embed.result_lower (same.trans hmade)]
      apply h.bind
      intro p q hpq
      rw [map_eq_bind, map_eq_bind]
      apply h'.bind
      intro p' q' hpq'
      simp [Agree, Plan.unnoted, hpq, hpq']

theorem Sql.lower_agree_relation {origin : Origin} (horigin : origin.span.isSome = true)
    (name relAlias : Value) (verbose : Bool) :
    Agree S ((Sql.relation origin name relAlias).lower catalog settings).result
      ((Sql.relation origin name relAlias).embed.lower catalog verbose).result := by
  have found : Agree S (relationNamed catalog name origin.span)
      (relationNamed catalog name origin.span) := .refl _
  cases htruthy : relAlias.isTruthy with
  | false =>
      simp only [lower, embed, htruthy, Bool.false_eq_true, if_false, Algebra.wrap,
        Algebra.lower, Header.annotate, aliased, Traced.result_bind, Traced.result_lift,
        result_lookUp, ok_bind]
      apply found.bind
      intro p q hpq
      exact .annotate (fun _ => horigin) hpq _ _ _ _
  | true =>
      obtain ⟨span, hspan⟩ : ∃ span, origin.span = some span :=
        Option.isSome_iff_exists.mp horigin
      have made : (AlgebraUnary.renameRelation relAlias).operator =
          .ok (.renameRelation relAlias) := rfl
      simp only [lower, embed, htruthy, if_true, Algebra.wrap, Algebra.lower, Header.annotate,
        aliased, Origin.require, hspan, Traced.result_bind, Traced.result_lift, result_lookUp,
        ok_bind]
      rw [AlgebraUnary.result_lower made, map_eq_bind]
      simp only [Traced.result_bind, Traced.result_lift, result_lookUp, bind_assoc]
      rw [hspan] at found
      apply found.bind
      intro p q hpq
      simp [Plan.annotate, Origin.require, hspan, Agree, Plan.unnoted, hpq]

/-- Without checks a well-typed statement is lowered by its stages alone. -/
theorem Sql.result_lower_statement {source : Sql} (ht : source.isWellTyped = true)
    (hcheck : settings.checkSchemas = false)
    (hc : settings.verbose = true → catalog.isWellTyped = true) (origin : Origin)
    (clauses : Clauses) :
    ((Sql.statement origin clauses source).lower catalog settings).result =
      ((source.lower catalog settings).result >>= fun p =>
        (clauses.stages origin).foldlM (Stage.run settings) p) >>= fun p =>
          (if clauses.select.distinct then p
            else p.warn Message.distinctMissing origin.span).annotate "Statement" origin []
              none := by
  simp only [lower, Traced.result_bind, Traced.result_lift, Clauses.result_lower]
  cases hsource : (source.lower catalog settings).result with
  | error fault => rfl
  | ok p =>
      have reported : logged settings p = .ok () :=
        logged_eq_ok settings fun hverbose =>
          (lowered_of_lower hsource).hasLabel Standard.isTyped_typed (hc hverbose) ht
      simp [checkIf, hcheck, reported]

theorem Sql.lower_agree {q : Sql} (ht : q.isWellTyped = true)
    (hplaced : ∀ node ∈ q.nodes, node.origin.span.isSome = true) (he : q.isEmbeddable = true)
    (hS : S → q.isWellFormed = true) (hcheck : settings.checkSchemas = false)
    (hc : settings.verbose = true → catalog.isWellTyped = true) (verbose : Bool) :
    Agree S (q.lower catalog settings).result (q.embed.lower catalog verbose).result := by
  induction q with
  | relation origin name relAlias =>
      simp only [nodes, List.mem_cons, List.not_mem_nil, or_false, forall_eq] at hplaced
      exact lower_agree_relation hplaced name relAlias verbose
  | statement origin clauses source ih =>
      simp only [isWellTyped, meets, Bool.and_eq_true] at ht
      simp only [isWellFormed, meets, Bool.and_eq_true] at hS
      simp only [nodes, List.mem_cons, forall_eq_or_imp] at hplaced
      obtain ⟨span, hspan⟩ : ∃ span, origin.span = some span :=
        Option.isSome_iff_exists.mp hplaced.1
      have below := ih ht.2 hplaced.2 he fun hexact => (hS hexact).2
      have wrapped := Stage.foldlM_agree hcheck (Clauses.layers_standFor ht.1.2 origin)
        (fun stage hstage op => Clauses.hasLabel_of_stage Standard.isTyped_typed ht.1.2 hstage)
        (fun hexact stage => Clauses.isSound_of_mem_stages (hS hexact).1.2
          (fun _ _ _ _ => trivial) ⟨span, hspan, trivial⟩) below
      rw [result_lower_statement ht.2 hcheck hc]
      refine wrapped.renote fun p => ⟨_, by simp only [Plan.annotate, Origin.require, hspan]; rfl,
        ?_⟩
      split
      · simp
      · simp [Plan.warn]
  | unary origin op child ih =>
      simp only [isWellTyped, meets, Bool.and_eq_true] at ht
      simp only [isWellFormed, meets, Bool.and_eq_true] at hS
      simp only [nodes, List.mem_cons, forall_eq_or_imp] at hplaced
      have below := ih ht.2 hplaced.2 he fun hexact => (hS hexact).2
      simp only [lower, embed, Algebra.lower, Header.annotate, Traced.result_bind,
        Traced.result_lift]
      exact (op.lower_agree ht.1.2 hplaced.1 (fun hexact => (hS hexact).1.2) below).bind
        fun p q hpq => .annotate (fun _ => hplaced.1) hpq _ _ _ _
  | binary origin op left right ihl ihr =>
      simp only [isWellTyped, meets, Bool.and_eq_true] at ht
      simp only [isWellFormed, meets, Bool.and_eq_true] at hS
      simp only [isEmbeddable, Bool.and_eq_true] at he
      simp only [nodes, List.mem_cons, List.mem_append, or_imp, forall_and, forall_eq] at hplaced
      have leftBelow := ihl ht.1.2 hplaced.2.1 he.1.2 fun hexact => (hS hexact).1.2
      have rightBelow := ihr ht.2 hplaced.2.2 he.2 fun hexact => (hS hexact).2
      simp only [lower, embed, Algebra.lower, Header.annotate, Traced.result_bind,
        Traced.result_lift]
      exact (op.lower_agree he.1.1 (fun hexact => (hS hexact).1.1.2) leftBelow rightBelow).bind
        fun p q hpq => .annotate (fun _ => hplaced.1) hpq _ _ _ _

/-- A well-typed SQL query and its embedding into relational algebra are compiled to the same plan
up to notes, or both fail. If the query is well formed, they fail with the same fault. -/
theorem Sql.compile_embed {q : Sql} (ht : q.isWellTyped = true)
    (hplaced : ∀ node ∈ q.nodes, node.origin.span.isSome = true) (he : q.isEmbeddable = true)
    (catalog : Catalog) (settings : Settings)
    (hc : settings.verbose = true → catalog.isWellTyped = true) :
    Agree (q.isWellFormed = true)
      (q.compile catalog
        { settings with checkSchemas := false, verifyPositions := false }).result
      (q.embed.compile catalog
        { settings with checkSchemas := false, verifyPositions := false }).result := by
  have unchecked :
      { settings with checkSchemas := false, verifyPositions := false }.checkSchemas = false := rfl
  have lowered := Sql.lower_agree ht hplaced he id unchecked hc settings.verbose
  simp only [Sql.compile, Algebra.compile, Traced.result_bind, Traced.result_lift]
  exact lowered.bind fun p q hpq => hpq

/-- The first two rows of a statement that renames a column. -/
def Sample.limited : Sql :=
  .unary origin (.limit (.int 2) (.int 0)) (statement renamed)

/-- A renaming and a limit are lowered alike in SQL and in the embedding. -/
theorem Sample.compile_embed_limited :
    ∃ p p', (limited.compile Sample.catalog
        { checkSchemas := false, verifyPositions := false }).result = .ok p ∧
      (limited.embed.compile Sample.catalog
        { checkSchemas := false, verifyPositions := false }).result = .ok p' ∧
      p.unnoted = p'.unnoted := by
  obtain ⟨p, hp⟩ : ∃ p, (limited.compile Sample.catalog
      { checkSchemas := false, verifyPositions := false }).result = .ok p := ⟨_, rfl⟩
  obtain ⟨p', hp'⟩ : ∃ p', (limited.embed.compile Sample.catalog
      { checkSchemas := false, verifyPositions := false }).result = .ok p' := ⟨_, rfl⟩
  have agree := @Sql.compile_embed limited (by decide) (by decide) (by decide) Sample.catalog {}
    (by decide)
  rw [hp, hp'] at agree
  exact ⟨p, p', hp, hp', agree⟩

end Query

end LogicalPlan
