import LogicalPlan.Proofs.Lowering.Located
import LogicalPlan.Proofs.Lowering.Shape

/-!
# Verification of lowered plans

Lowering gives a position to every operator, also to those that no node of the query stands for, and
keeps the positions of expressions. Verifying the positions of a lowered plan therefore fails if and
only if an expression of the query lacks a position, and changes nothing otherwise.

## Implementation notes

An expression of a plan is compared part by part with the expression of the query that it was
lowered from: both have positions throughout or neither has. For lists of expressions this is
`Mirrors`, which does not depend on their order, so the order in which clauses are lowered plays no
role.
-/

namespace LogicalPlan

open Outcome

/-- If all operators have positions, and labels as far as they have expressions, then verification
can only fail at an expression, which it reports at the position of the operator. -/
theorem Plan.eq_of_verifyPositions_eq_error {p : Plan} {fault : Fault}
    (hspan : ∀ node ∈ p.walk, node.span ≠ none)
    (hlabel : ∀ node ∈ p.walk, node.expressions ≠ [] → node.HasLabel)
    (h : p.verifyPositions = .error fault) :
    ∃ node ∈ p.walk, ∃ literal label,
      fault = .violation (.unpositionedExpression literal label) node.span := by
  obtain ⟨node, hnode, h⟩ := forM_eq_error h
  obtain ⟨span, hplaced⟩ := Option.ne_none_iff_exists'.mp (hspan node hnode)
  simp only [verifyRoot, hplaced] at h
  obtain ⟨e, he, h⟩ := forM_eq_error h
  obtain ⟨part, hpart, h⟩ := forM_eq_error h
  obtain ⟨label, hlabelled⟩ := Gives.exists_ok (hlabel node hnode (List.ne_nil_of_mem he))
  cases hmissing : part.span with
  | some span => simp [hmissing] at h
  | none =>
      simp only [hmissing, hlabelled, ok_bind, Except.error.injEq] at h
      exact ⟨node, hnode, _, _, h.symm⟩

namespace Query

/-! ### Expressions -/

namespace Term

mutual

/-- The expression and all nested ones in preorder. Constants and column references have no nested
expressions, since their arguments are taken literally. -/
def walk : Term → List Term
  | .mk origin datatype func args =>
    .mk origin datatype func args ::
      if datatype = .string "null" ∧ func = columnName then []
      else if func = Expr.constantName then []
      else walkArguments args

/-- The expressions in arguments in preorder. -/
def walkArguments : List TermArgument → List Term
  | [] => []
  | .literal _ :: as => walkArguments as
  | .nested t :: as => walk t ++ walkArguments as

end

/-- The expression and all expressions nested in it have positions. -/
def IsPositioned (t : Term) : Prop :=
  ∀ part ∈ t.walk, part.origin.span ≠ none

/-- The expression references a column. -/
def isColumn (t : Term) : Bool :=
  decide (t.datatype = .string "null" ∧ t.func = columnName)

/-- The column that the arguments of a column reference denote. An empty alias counts as none. -/
def referenceOf : List TermArgument → Column
  | [] => default
  | [name] => ⟨literalOf name, .null⟩
  | name :: relAlias :: _ =>
    ⟨literalOf name, if (literalOf relAlias).isTruthy then literalOf relAlias else .null⟩

/-- The column that the expression references, if it is a column reference. -/
def column? (t : Term) : Option Column :=
  if t.isColumn then some (referenceOf t.args) else none

theorem eq_referenceOf {args : List TermArgument} {c : Column}
    (h : columnOf (args.map literalOf) = .ok c) : c = referenceOf args := by
  match args with
  | [_] => exact Column.eq_of_make h
  | _ :: _ :: _ => exact Column.eq_of_make h

theorem isColumn_mk_eq_false {origin : Origin} {datatype func : Value} {args : List TermArgument}
    (h : ¬ (datatype = .string "null" ∧ func = columnName)) :
    (mk origin datatype func args).isColumn = false :=
  decide_eq_false h

/-- The part of a lowered expression comes from the part of the parsed one. -/
structure Counterpart (node : Term) (part : Expr) : Prop where
  func : part.func = node.func
  datatype : part.datatype = node.datatype
  origin : part.origin = node.origin
  column : part.column? = node.column?

mutual

/-- The parts of a lowered expression are those of the parsed one, in the same order. -/
theorem counterparts_of_lower :
    ∀ {t : Term} {e : Expr}, t.lower = .ok e → List.Forall₂ Counterpart t.walk e.walk
  | .mk origin datatype func args, e, h => by
    unfold lower at h
    unfold walk
    split at h
    case isTrue hcolumn =>
      obtain ⟨ref, href, h⟩ := bind_eq_ok.mp h
      obtain ⟨rfl, rfl⟩ := hcolumn
      cases h
      rw [eq_referenceOf href, if_pos ⟨rfl, rfl⟩]
      exact .cons ⟨rfl, rfl, rfl, rfl⟩ .nil
    case isFalse hcolumn =>
      have head (lowered : List Argument) :
          Counterpart (.mk origin datatype func args) (.apply origin datatype func lowered) :=
        ⟨rfl, rfl, rfl, by rw [column?, isColumn_mk_eq_false hcolumn]; rfl⟩
      rw [if_neg hcolumn]
      split at h
      · cases h
      split at h
      · cases h
      split at h
      case isTrue hconstant =>
        cases h
        rw [Expr.walk, if_pos hconstant, if_pos hconstant]
        exact .cons (head _) .nil
      case isFalse hconstant =>
        obtain ⟨lowered, hlowered, h⟩ := bind_eq_ok.mp h
        cases h
        rw [Expr.walk, if_neg hconstant, if_neg hconstant]
        exact .cons (head _) (counterparts_of_lowerArguments hlowered)

theorem counterparts_of_lowerArguments :
    ∀ {args : List TermArgument} {lowered : List Argument}, lowerArguments args = .ok lowered →
      List.Forall₂ Counterpart (walkArguments args) (Expr.walkArguments lowered)
  | [], _, h => by
    cases h
    exact .nil
  | .literal _ :: _, _, h => by
    cases h
  | .nested t :: as, lowered, h => by
    obtain ⟨first, hfirst, h⟩ := bind_eq_ok.mp h
    obtain ⟨others, hothers, h⟩ := bind_eq_ok.mp h
    obtain ⟨e, he, rfl⟩ := map_eq_ok.mp hfirst
    cases h
    exact List.rel_append (counterparts_of_lower he) (counterparts_of_lowerArguments hothers)

end

/-- Lowering keeps the positions of an expression and of all nested ones. -/
theorem isPositioned_of_lower {t : Term} {e : Expr} (h : t.lower = .ok e) :
    e.IsPositioned ↔ t.IsPositioned := by
  have parts := counterparts_of_lower h
  unfold Expr.IsPositioned IsPositioned
  generalize t.walk = nodes, e.walk = lowered at parts
  induction parts with
  | nil => simp
  | cons first _ ih =>
      rw [List.forall_mem_cons, List.forall_mem_cons, Expr.span, first.origin]
      exact and_congr_right fun _ => ih

end Term

/-- The expressions have positions throughout exactly if the parsed expressions have. -/
def Mirrors (es : List Expr) (ts : List Term) : Prop :=
  (∀ e ∈ es, e.IsPositioned) ↔ ∀ t ∈ ts, t.IsPositioned

namespace Mirrors

variable {es es' : List Expr} {ts ts' : List Term}

theorem nil : Mirrors [] [] :=
  ⟨fun _ => nofun, fun _ => nofun⟩

theorem single {e : Expr} {t : Term} (h : t.lower = .ok e) : Mirrors [e] [t] := by
  simpa [Mirrors] using Term.isPositioned_of_lower h

theorem append (h : Mirrors es ts) (h' : Mirrors es' ts') : Mirrors (es ++ es') (ts ++ ts') := by
  unfold Mirrors
  rw [List.forall_mem_append, List.forall_mem_append]
  exact and_congr h h'

theorem perm (h : Mirrors es ts) (hp : ts.Perm ts') : Mirrors es ts' := by
  have same : (∀ t ∈ ts, t.IsPositioned) ↔ ∀ t ∈ ts', t.IsPositioned :=
    forall_congr' fun t => imp_congr_left hp.mem_iff
  exact Iff.trans h same

end Mirrors

/-! ### Operators -/

theorem ComputedColumn.mirrors_of_lower {c : ComputedColumn} {item : ProjectionItem}
    (h : c.lower = .ok item) : Mirrors (UnaryOp.projection [item]).expressions [c.child] := by
  obtain ⟨child, hchild, h⟩ := bind_eq_ok.mp h
  cases h
  exact .single hchild

theorem SelectItem.mirrors_of_lower {item : SelectItem} {made : ProjectionItem}
    (h : item.lower = .ok made) : Mirrors (UnaryOp.projection [made]).expressions item.terms := by
  cases item with
  | column _ name relAlias label =>
      obtain ⟨c, -, rfl⟩ := map_eq_ok.mp h
      exact .nil
  | aggregate call =>
      obtain ⟨c, -, rfl⟩ := map_eq_ok.mp h
      exact .nil
  | computed c => exact c.mirrors_of_lower h

theorem ProjectionEntry.mirrors_of_lower {entry : ProjectionEntry} {made : ProjectionItem}
    (h : entry.lower = .ok made) : Mirrors (UnaryOp.projection [made]).expressions entry.terms := by
  cases entry with
  | column ref =>
      obtain ⟨c, -, rfl⟩ := map_eq_ok.mp h
      exact .nil
  | computed c => exact c.mirrors_of_lower h

/-- A projection mirrors its entries if each of its columns mirrors its entry. -/
theorem mirrors_projection {α : Type} {lower : α → Outcome ProjectionItem} {terms : α → List Term}
    (hentry : ∀ {entry made}, lower entry = .ok made →
      Mirrors (UnaryOp.projection [made]).expressions (terms entry))
    {entries : List α} {columns : List ProjectionItem} (h : entries.mapM lower = .ok columns) :
    Mirrors (UnaryOp.projection columns).expressions (entries.flatMap terms) := by
  induction mapM_eq_ok.mp h with
  | nil => exact .nil
  | @cons entry made entries columns hlower rest ih =>
      have split : (UnaryOp.projection (made :: columns)).expressions =
          (UnaryOp.projection [made]).expressions ++ (UnaryOp.projection columns).expressions := by
        cases made <;> rfl
      rw [split]
      exact (hentry hlower).append (ih (mapM_eq_ok.mpr rest))

theorem JoinQualifier.mirrors_of_lower {qualifier : JoinQualifier} {condition : JoinCondition}
    (h : qualifier.lower = .ok condition) (kind : JoinKind) :
    Mirrors (BinaryOp.join kind condition).expressions qualifier.terms := by
  cases qualifier with
  | absent =>
      cases h
      exact .nil
  | columns names =>
      cases h
      exact .nil
  | condition t =>
      obtain ⟨e, he, rfl⟩ := map_eq_ok.mp h
      exact .single he

theorem SqlUnary.mirrors_of_operator {op : SqlUnary} {origin : Origin} {verbose : Bool}
    {made : UnaryOp} (h : op.operator origin verbose = .ok made) : Mirrors made.expressions [] := by
  cases op with
  | renameRelation relAlias =>
      cases h
      exact .nil
  | subquery relAlias =>
      cases h
      exact .nil
  | orderBy entries =>
      obtain ⟨keys, -, rfl⟩ := map_eq_ok.mp h
      exact .nil
  | limit count offset =>
      obtain ⟨span, -, h⟩ := bind_eq_ok.mp h
      obtain ⟨condition, hcondition, h⟩ := bind_eq_ok.mp h
      obtain ⟨_, -, h⟩ := bind_eq_ok.mp h
      cases h
      have placed := isPlaced_of_limitCondition (P := fun _ => True) trivial hcondition
      simpa [Mirrors, UnaryOp.expressions] using placed.isPositioned

theorem SqlBinary.mirrors_of_operator {op : SqlBinary} {made : BinaryOp}
    (h : op.operator = .ok made) : Mirrors made.expressions op.terms := by
  cases op with
  | join kind qualifier =>
      obtain ⟨condition, hcondition, rfl⟩ := map_eq_ok.mp h
      exact qualifier.mirrors_of_lower hcondition kind
  | set operation keepsAll =>
      cases h
      cases operation <;> exact .nil
  | _ =>
      cases h
      exact .nil

theorem AlgebraUnary.mirrors_of_operator {op : AlgebraUnary} {made : UnaryOp}
    (h : op.operator = .ok made) : Mirrors made.expressions op.terms := by
  cases op with
  | selection condition =>
      obtain ⟨e, he, rfl⟩ := map_eq_ok.mp h
      exact .single he
  | projection entries =>
      obtain ⟨columns, hcolumns, rfl⟩ := map_eq_ok.mp h
      exact mirrors_projection ProjectionEntry.mirrors_of_lower hcolumns
  | orderBy entries =>
      obtain ⟨keys, -, rfl⟩ := map_eq_ok.mp h
      exact .nil
  | groupBy groups aggregates =>
      obtain ⟨made, -, h⟩ := bind_eq_ok.mp h
      obtain ⟨columns, -, h⟩ := bind_eq_ok.mp h
      cases h
      exact .nil
  | renameColumns renamings =>
      obtain ⟨made, -, rfl⟩ := map_eq_ok.mp h
      exact .nil
  | renameRelation relAlias =>
      cases h
      exact .nil

theorem AlgebraBinary.mirrors_of_operator {op : AlgebraBinary} {made : BinaryOp}
    (h : op.operator = .ok made) : Mirrors made.expressions op.terms := by
  cases op with
  | theta condition =>
      obtain ⟨e, he, rfl⟩ := map_eq_ok.mp h
      exact .single he
  | outer side qualifier =>
      obtain ⟨condition, hcondition, rfl⟩ := map_eq_ok.mp h
      exact qualifier.mirrors_of_lower hcondition side.joinKind
  | _ =>
      cases h
      exact .nil

/-! ### Statements -/

/-- The expressions of what the stage makes mirror the given ones. -/
def Stage.Carries (stage : Stage) (ts : List Term) : Prop :=
  ∀ made, stage.operator = .ok made → Mirrors (made.toList.flatMap UnaryOp.expressions) ts

namespace Clauses

theorem filterStage_carries (clause : Option ConditionClause) :
    (filterStage clause).Carries (conditions clause) := by
  intro made hmade
  cases clause with
  | none =>
      cases hmade
      exact .nil
  | some clause =>
      obtain ⟨e, he, rfl⟩ := map_eq_ok.mp hmade
      exact .single he

theorem grouping_carries {clauses : Clauses} {made : Option UnaryOp}
    (h : clauses.groupingOperator = .ok made) :
    Mirrors (made.toList.flatMap UnaryOp.expressions) [] := by
  obtain ⟨aggregates, -, h⟩ := bind_eq_ok.mp h
  obtain ⟨isGrouped, -, h⟩ := bind_eq_ok.mp h
  cases isGrouped with
  | false =>
      cases h
      exact .nil
  | true =>
      obtain ⟨groups, -, h⟩ := bind_eq_ok.mp h
      cases h
      have plain : (UnaryOp.projection (groups.map ProjectionItem.column)).expressions = [] := by
        simp [UnaryOp.expressions]
      cases aggregates.isEmpty with
      | true => simp [plain, Mirrors]
      | false => exact .nil

theorem select_carries {clauses : Clauses} {made : Option UnaryOp}
    (h : clauses.selectOperator = .ok made) :
    Mirrors (made.toList.flatMap UnaryOp.expressions)
      (clauses.select.items.flatMap SelectItem.terms) := by
  unfold selectOperator at h
  split at h
  case isTrue heverything =>
    cases h
    -- The only entry is the wildcard, so there is no computed column that could be lost.
    unfold SelectItem.isEverything at heverything
    split at heverything
    case h_1 item hitems =>
      rw [hitems]
      cases item with
      | column _ name relAlias label => exact .nil
      | _ => cases heverything
    case h_2 => cases heverything
  case isFalse =>
    obtain ⟨columns, hcolumns, rfl⟩ := map_eq_ok.mp h
    have mirrored := mirrors_projection SelectItem.mirrors_of_lower hcolumns
    simpa using mirrored

theorem naming_carries {clauses : Clauses} {made : Option UnaryOp}
    (h : clauses.namingOperator = .ok made) :
    Mirrors (made.toList.flatMap UnaryOp.expressions) [] := by
  obtain ⟨renamings, -, h⟩ := bind_eq_ok.mp h
  split at h <;> cases h <;> exact .nil

/-- The stages of a statement carry the expressions of its clauses. -/
theorem stages_carry (clauses : Clauses) (origin : Origin) :
    ∃ tss, List.Forall₂ Stage.Carries (clauses.stages origin) tss ∧
      tss.flatten.Perm clauses.terms := by
  refine ⟨[conditions clauses.filter, [], conditions clauses.having,
    clauses.select.items.flatMap SelectItem.terms, []], ?_, by simp [terms]⟩
  exact .cons (filterStage_carries _) <| .cons (fun _ => grouping_carries) <|
    .cons (filterStage_carries _) <| .cons (fun _ => select_carries) <|
      .cons (fun _ => naming_carries) .nil

end Clauses

/-! ### Plans -/

/-- All operators of the plan have positions, its expressions mirror the given ones, and under the
given condition the operators with expressions have labels. -/
structure Covers (typed : Prop) (p : Plan) (ts : List Term) : Prop where
  positioned : ∀ node ∈ p.walk, node.span ≠ none
  mirrors : Mirrors p.allExpressions ts
  labelled : typed → ∀ node ∈ p.walk, node.expressions ≠ [] → node.HasLabel

namespace Covers

variable {typed : Prop} {p q : Plan} {ts ts' us : List Term} {notes : Notes} {origin : Origin}
  {span : SourceSpan} {metadata : Members}

theorem relation (hspan : notes.span ≠ none) (base : Relation) :
    Covers typed (.relation notes base) [] where
  positioned node hnode := by
    rw [List.mem_singleton.mp hnode]
    exact hspan
  mirrors := .nil
  labelled _ node hnode hexpressions := by
    rw [List.mem_singleton.mp hnode] at hexpressions
    exact absurd rfl hexpressions

theorem unary {op : UnaryOp} (hop : Mirrors op.expressions us) (hlabel : typed → op.HasLabel)
    (hp : Covers typed p ts) :
    Covers typed ((Plan.unary notes op p).overlay origin span metadata) (us ++ ts) where
  positioned node hnode := by
    rcases List.mem_cons.mp hnode with rfl | hnode
    · exact Option.some_ne_none span
    · exact hp.positioned node hnode
  mirrors := hop.append hp.mirrors
  labelled ht node hnode := by
    rcases List.mem_cons.mp hnode with rfl | hnode
    · exact fun _ => hlabel ht
    · exact hp.labelled ht node hnode

theorem binary {op : BinaryOp} (hop : Mirrors op.expressions us) (hlabel : typed → op.HasLabel)
    (hp : Covers typed p ts) (hq : Covers typed q ts') :
    Covers typed ((Plan.binary notes op p q).overlay origin span metadata) (us ++ (ts ++ ts')) where
  positioned node hnode := by
    rcases List.mem_cons.mp hnode with rfl | hnode
    · exact Option.some_ne_none span
    · rcases List.mem_append.mp hnode with hnode | hnode
      · exact hp.positioned node hnode
      · exact hq.positioned node hnode
  mirrors := by
    rw [Plan.overlay, Plan.allExpressions_withNotes, Plan.allExpressions, Plan.walk,
      List.flatMap_cons, List.flatMap_append]
    exact hop.append (hp.mirrors.append hq.mirrors)
  labelled ht node hnode := by
    rcases List.mem_cons.mp hnode with rfl | hnode
    · exact fun _ => hlabel ht
    · rcases List.mem_append.mp hnode with hnode | hnode
      · exact hp.labelled ht node hnode
      · exact hq.labelled ht node hnode

theorem perm (hp : Covers typed p ts) (h : ts.Perm ts') : Covers typed p ts' where
  positioned := hp.positioned
  mirrors := hp.mirrors.perm h
  labelled := hp.labelled

/-- Expressions whose lowering left nothing behind can be added. -/
theorem add (hp : Covers typed p ts) (h : Mirrors [] us) : Covers typed p (us ++ ts) where
  positioned := hp.positioned
  mirrors := h.append hp.mirrors
  labelled := hp.labelled

theorem withNotes (hp : Covers typed p ts) (hspan : notes.span ≠ none) :
    Covers typed (p.withNotes notes) ts where
  positioned node hnode := by
    rw [Plan.walk_eq, Plan.children_withNotes] at hnode
    rcases List.mem_cons.mp hnode with rfl | hnode
    · rw [Plan.span, Plan.notes_withNotes]
      exact hspan
    · exact hp.positioned node (p.walk_eq ▸ List.mem_cons_of_mem _ hnode)
  mirrors := by
    rw [Plan.allExpressions_withNotes]
    exact hp.mirrors
  labelled ht node hnode hexpressions := by
    rw [Plan.walk_eq, Plan.children_withNotes] at hnode
    rcases List.mem_cons.mp hnode with rfl | hnode
    · rw [Plan.expressions_withNotes] at hexpressions
      exact (hp.labelled ht p p.mem_walk_self hexpressions).withNotes _
    · exact hp.labelled ht node (p.walk_eq ▸ List.mem_cons_of_mem _ hnode) hexpressions

theorem overlay (hp : Covers typed p ts) : Covers typed (p.overlay origin span metadata) ts :=
  hp.withNotes (Option.some_ne_none span)

end Covers

/-- Running the stages of a statement adds the expressions that they carry. -/
theorem Applied.covers {typed : Prop} {stages : List Stage} {tss : List (List Term)} {p q : Plan}
    {ts : List Term} (h : Applied stages p q) (hcarry : List.Forall₂ Stage.Carries stages tss)
    (hlabel : typed → ∀ stage ∈ stages, ∀ op, stage.operator = .ok (some op) → op.HasLabel)
    (hp : Covers typed p ts) : Covers typed q (tss.flatten ++ ts) := by
  have reorder (us : List Term) (uss : List (List Term)) (ts : List Term) :
      (uss.flatten ++ (us ++ ts)).Perm ((us :: uss).flatten ++ ts) := by
    rw [List.flatten_cons, List.append_assoc]
    exact List.perm_append_comm_assoc _ _ _
  induction h generalizing tss ts with
  | nil p =>
      cases hcarry
      exact hp
  | @keep stage stages p q hmade rest ih =>
      obtain ⟨us, uss, hus, huss, rfl⟩ := List.forall₂_cons_left_iff.mp hcarry
      have later : typed → ∀ stage ∈ stages, ∀ op, stage.operator = .ok (some op) → op.HasLabel :=
        fun ht stage hstage => hlabel ht stage (List.mem_cons_of_mem _ hstage)
      exact (ih huss later (hp.add (hus none hmade))).perm (reorder us uss ts)
  | @put stage stages p q op span hmade hspan rest ih =>
      obtain ⟨us, uss, hus, huss, rfl⟩ := List.forall₂_cons_left_iff.mp hcarry
      have later : typed → ∀ stage ∈ stages, ∀ op, stage.operator = .ok (some op) → op.HasLabel :=
        fun ht stage hstage => hlabel ht stage (List.mem_cons_of_mem _ hstage)
      have mirrored : Mirrors op.expressions us := by
        simpa using hus (some op) hmade
      have put : Covers typed ((Plan.unary {} op p).overlay stage.origin span []) (us ++ ts) :=
        .unary mirrored (fun ht => hlabel ht stage List.mem_cons_self op hmade) hp
      exact (ih huss later put).perm (reorder us uss ts)

/-! ### Queries -/

variable {catalog : Catalog} {typed : Prop}

theorem Sql.Lowered.covers {verbose : Bool} {q : Sql} {p : Plan}
    (ht : typed → q.isWellTyped = true) (h : Lowered catalog verbose q p) :
    Covers typed p q.terms := by
  induction h with
  | @relation origin span name relAlias notes base hfind hspan =>
      exact .relation (Option.some_ne_none span) base
  | @aliased origin span name relAlias notes base hfind hspan =>
      have named : Covers typed (.relation { notes with span := some span } base) [] :=
        .relation (Option.some_ne_none span) base
      have mirrored : Mirrors (UnaryOp.renameRelation relAlias).expressions [] := .nil
      exact .unary mirrored (fun _ => trivial) named
  | @statement origin span clauses source p q below happlied hspan ih =>
      simp only [isWellTyped, meets, Bool.and_eq_true] at ht
      obtain ⟨tss, hcarry, hperm⟩ := clauses.stages_carry origin
      have label (wellTyped : typed) (stage : Stage) (hstage : stage ∈ clauses.stages origin)
          (op : UnaryOp) : stage.operator = .ok (some op) → op.HasLabel :=
        Clauses.hasLabel_of_stage Standard.isTyped_typed (ht wellTyped).1.2 hstage
      have source := ih fun wellTyped => (ht wellTyped).2
      have applied := (happlied.covers hcarry label source).perm (hperm.append_right _)
      unfold Clauses.advise
      split
      · exact applied.overlay
      · have remarked : Covers typed (q.warn Message.distinctMissing origin.span) _ :=
          applied.withNotes (applied.positioned q q.mem_walk_self)
        exact remarked.overlay
  | @unary origin span op made child p hmade below hspan ih =>
      simp only [isWellTyped, meets, Bool.and_eq_true] at ht
      have child := ih fun wellTyped => (ht wellTyped).2
      exact .unary (op.mirrors_of_operator hmade)
        (fun _ => op.hasLabel_of_operator hmade) child
  | @binary origin span op made left right p q hmade leftBelow rightBelow hspan ihl ihr =>
      simp only [isWellTyped, meets, Bool.and_eq_true] at ht
      have left := ihl fun wellTyped => (ht wellTyped).1.2
      have right := ihr fun wellTyped => (ht wellTyped).2
      exact .binary (op.mirrors_of_operator hmade)
        (fun wellTyped => op.hasLabel_of_operator Standard.isTyped_typed (ht wellTyped).1.1.2 hmade)
        left right

theorem Algebra.Lowered.covers {q : Algebra} {p : Plan} (ht : typed → q.isWellTyped = true)
    (h : Lowered catalog q p) : Covers typed p q.terms := by
  induction h with
  | @relation header span name notes base hfind hspan =>
      exact .relation (Option.some_ne_none span) base
  | @table header span inline base hbase hspan => exact .relation (Option.some_ne_none span) base
  | @unary header span op made child p hmade below hspan ih =>
      simp only [isWellTyped, meets, Bool.and_eq_true] at ht
      have child := ih fun wellTyped => (ht wellTyped).2
      exact .unary (op.mirrors_of_operator hmade)
        (fun wellTyped => op.hasLabel_of_operator Standard.isTyped_typed (ht wellTyped).1.2 hmade)
        child
  | @binary header span op made left right p q hmade leftBelow rightBelow hspan ihl ihr =>
      simp only [isWellTyped, meets, Bool.and_eq_true] at ht
      have left := ihl fun wellTyped => (ht wellTyped).1.2
      have right := ihr fun wellTyped => (ht wellTyped).2
      exact .binary (op.mirrors_of_operator hmade)
        (fun wellTyped => op.hasLabel_of_operator Standard.isTyped_typed (ht wellTyped).1.1.2 hmade)
        left right

end Query

/-! ### Compilation -/

/-- The settings with the verification of positions turned on or off. -/
def Settings.verifying (settings : Settings) (on : Bool) : Settings :=
  { settings with verifyPositions := on }

theorem Query.Sql.lower_verifying (q : Sql) (catalog : Catalog) (settings : Settings) (on : Bool) :
    q.lower catalog (settings.verifying on) = q.lower catalog settings := by
  induction q with
  | relation origin name relAlias => rfl
  | statement origin clauses source ih =>
      rw [lower, lower, ih]
      rfl
  | unary origin op child ih =>
      rw [lower, lower, ih]
      rfl
  | binary origin op left right ihl ihr =>
      rw [lower, lower, ihl, ihr]

namespace LoadedQuery

/-- The expressions of the query that are lowered. -/
def terms : LoadedQuery → List Query.Term
  | .sql q => q.terms
  | .algebra q => q.terms

/-- Every attribute of the query is of its declared kind. -/
def isWellTyped : LoadedQuery → Bool
  | .sql q => q.isWellTyped
  | .algebra q => q.isWellTyped

/-- An expression of the query, or one that is nested in it, has no position. -/
def HasGap (q : LoadedQuery) : Prop :=
  ∃ t ∈ q.terms, ∃ part ∈ t.walk, part.origin.span = none

variable {q : LoadedQuery} {catalog : Catalog} {settings : Settings} {isNode : Bool} {p : Plan}

theorem covers_of_compile
    (h : (q.grammar.compile isNode catalog settings q).result = .ok p) :
    Query.Covers (q.isWellTyped = true) p q.terms := by
  cases q with
  | sql q => exact (Query.Sql.lowered_of_compile h).covers id
  | algebra q => exact (Query.Algebra.lowered_of_compile h).covers id

/-- Turning the verification on verifies what is compiled without it. -/
theorem compile_verifying_eq :
    (q.grammar.compile isNode catalog (settings.verifying true) q).result =
      (q.grammar.compile isNode catalog (settings.verifying false) q).result >>=
        fun p => p.verifyPositions >>= fun _ => .ok p := by
  cases q with
  | sql q =>
      simp only [grammar, Grammar.compile, Query.Sql.compile, Traced.result_bind,
        Traced.result_lift, Query.Sql.lower_verifying, bind_assoc]
      rfl
  | algebra q =>
      simp only [grammar, Grammar.compile, Query.Algebra.compile, Traced.result_bind,
        Traced.result_lift, bind_assoc]
      rfl

/-- All operators of a plan that is compiled without verification have positions. With verification
the compilation fails exactly if an expression of the query has none, and yields the same plan
otherwise. For well-typed queries the fault is always that of an expression, at the position of its
operator. -/
theorem compile_verifying
    (h : (q.grammar.compile isNode catalog (settings.verifying false) q).result = .ok p) :
    (∀ node ∈ p.walk, ∃ span, node.span = some span) ∧
    ((∃ fault,
      (q.grammar.compile isNode catalog (settings.verifying true) q).result = .error fault) ↔
        q.HasGap) ∧
    (¬q.HasGap → (q.grammar.compile isNode catalog (settings.verifying true) q).result = .ok p) ∧
    (q.isWellTyped = true → ∀ fault,
      (q.grammar.compile isNode catalog (settings.verifying true) q).result = .error fault →
        ∃ node ∈ p.walk, ∃ literal label,
          fault = .violation (.unpositionedExpression literal label) node.span) := by
  have covered := covers_of_compile h
  have verified : p.verifyPositions = .ok () ↔ ¬q.HasGap := by
    have gap : ¬q.HasGap ↔ ∀ t ∈ q.terms, t.IsPositioned := by
      simp [HasGap, Query.Term.IsPositioned]
    rw [Plan.verifyPositions_eq_ok, gap]
    exact (and_iff_right covered.positioned).trans covered.mirrors
  rw [compile_verifying_eq, h, ok_bind]
  refine ⟨fun node hnode => Option.ne_none_iff_exists'.mp (covered.positioned node hnode), ?_⟩
  cases hp : p.verifyPositions with
  | ok u =>
      have complete : ¬q.HasGap := verified.mp hp
      simp [complete]
  | error fault =>
      have gap : q.HasGap := by
        by_contra complete
        rw [verified.mpr complete] at hp
        cases hp
      refine ⟨⟨fun _ => gap, fun _ => ⟨fault, rfl⟩⟩, fun complete => absurd gap complete, ?_⟩
      intro ht other hother
      cases hother
      exact Plan.eq_of_verifyPositions_eq_error covered.positioned (covered.labelled ht) hp

end LoadedQuery

namespace Query.Sample

/-- The condition `a > 1`, whose column reference has no position. -/
def comparison : Term :=
  .mk origin (.string "boolean") (.string ">")
    [.nested (.mk {} (.string "null") Term.columnName [.literal (.string "a")]),
      .nested (.mk origin (.string "number") Expr.constantName [.literal (.int 1)])]

/-- A statement that is filtered by the condition. -/
def filtered : LoadedQuery :=
  .sql (.statement origin { clauses renamed with filter := some ⟨origin, comparison⟩ } source)

/-- The missing position of the column reference is found, but only by the verification. -/
theorem compile_verifying_filtered :
    ∃ p, (filtered.grammar.compile true catalog (Settings.verifying {} false) filtered).result =
        .ok p ∧
      (∀ node ∈ p.walk, ∃ span, node.span = some span) ∧ filtered.HasGap ∧
      ∃ node ∈ p.walk, ∃ literal label,
        (filtered.grammar.compile true catalog (Settings.verifying {} true) filtered).result =
          .error (.violation (.unpositionedExpression literal label) node.span) := by
  obtain ⟨p, hp⟩ : ∃ p, (filtered.grammar.compile true catalog (Settings.verifying {} false)
      filtered).result = .ok p := ⟨_, rfl⟩
  have gap : filtered.HasGap := by
    refine ⟨comparison, List.mem_singleton_self _, ?_⟩
    simp [comparison, Term.walk, Term.walkArguments, Expr.constantName, Term.origin]
  obtain ⟨placed, fails, -, violated⟩ := LoadedQuery.compile_verifying hp
  obtain ⟨fault, hfault⟩ := fails.mpr gap
  obtain ⟨node, hnode, literal, label, rfl⟩ := violated (by decide) fault hfault
  exact ⟨p, hp, placed, gap, node, hnode, literal, label, hfault⟩

end Query.Sample

end LogicalPlan
