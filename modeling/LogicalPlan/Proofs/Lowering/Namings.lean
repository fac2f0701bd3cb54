import Mathlib.Data.List.Forall2
import LogicalPlan.Proofs.Lowering.Aggregates
import LogicalPlan.Proofs.Query.WellFormed

/-!
# New names for columns

A compiled plan renames columns once for every statement with a renamed entry in its SELECT list,
and nowhere else. What it renames is the projection of the same list, unless the list keeps
everything: there is no projection then, and the new names are put over the plan of the clauses
before the list.

## Implementation notes

A list keeps everything if it is the plain wildcard alone. Whether the wildcard has a label is not
looked at there, while a label is all that a new name takes.
-/

namespace LogicalPlan

open Outcome

/-- The operator gives columns new names. -/
def UnaryOp.isNaming : UnaryOp → Bool
  | .renameColumns _ => true
  | _ => false

namespace Plan

/-- New names for columns, and the plan whose columns get them. -/
structure Naming where
  renamings : List Renaming
  input : Plan

/-- The new names that the operator at the root gives. -/
def naming? : Plan → Option Naming
  | .unary _ (.renameColumns renamings) input => some ⟨renamings, input⟩
  | _ => none

/-- The operators of a plan that give new names, in preorder. -/
def namings (p : Plan) : List Naming :=
  p.walk.filterMap naming?

@[simp] theorem namings_relation (notes : Notes) (base : Relation) :
    (relation notes base).namings = [] :=
  rfl

@[simp] theorem namings_renameColumns (notes : Notes) (renamings : List Renaming) (input : Plan) :
    (unary notes (.renameColumns renamings) input).namings = ⟨renamings, input⟩ :: input.namings :=
  rfl

theorem namings_unary {op : UnaryOp} (hop : op.isNaming = false) (notes : Notes) (input : Plan) :
    (unary notes op input).namings = input.namings := by
  cases op with
  | renameColumns renamings => cases hop
  | _ => rfl

@[simp] theorem namings_binary (notes : Notes) (op : BinaryOp) (left right : Plan) :
    (binary notes op left right).namings = left.namings ++ right.namings :=
  List.filterMap_append

@[simp] theorem namings_withNotes (notes : Notes) (p : Plan) :
    (p.withNotes notes).namings = p.namings := by
  cases p with
  | unary _ op input => cases op <;> rfl
  | _ => rfl

@[simp] theorem namings_overlay (p : Plan) (origin : Origin) (span : SourceSpan)
    (metadata : Members) : (p.overlay origin span metadata).namings = p.namings :=
  namings_withNotes _ p

end Plan

namespace Query

/-! ### Renamed entries -/

namespace SelectItem

/-- The entry is a plain column that gets a new name. -/
def isRenamed : SelectItem → Bool
  | .column _ _ _ label => label.isTruthy
  | _ => false

/-- An entry of a SELECT list has a new name exactly if it is renamed. -/
theorem isSome_of_newName {item : SelectItem} {made : Option Renaming}
    (h : item.newName = .ok made) : made.isSome = item.isRenamed := by
  cases item with
  | column origin name relAlias label =>
      simp only [newName] at h
      split at h
      case isTrue htruthy =>
        obtain ⟨_, -, rfl⟩ := map_eq_ok.mp h
        exact htruthy.symm
      case isFalse hfalsy =>
        cases h
        exact (Bool.eq_false_iff.mpr hfalsy).symm
  | _ =>
      cases h
      rfl

/-- There are no new names exactly if no entry is renamed. -/
theorem filterMap_eq_nil_iff {items : List SelectItem} {made : List (Option Renaming)}
    (h : items.mapM newName = .ok made) : made.filterMap id = [] ↔ items.any isRenamed = false := by
  rw [List.filterMap_eq_nil_iff, List.any_eq_false]
  constructor
  · intro hnone item hitem
    obtain ⟨new, hnew, hmade⟩ := exists_of_mapM_eq_ok h hitem
    rw [← isSome_of_newName hmade, show new = none from hnone new hnew]
    exact Bool.false_ne_true
  · intro hplain new hnew
    obtain ⟨item, hitem, hmade⟩ := exists_of_mem_mapM h hnew
    have hunnamed := hplain item hitem
    rw [← isSome_of_newName hmade] at hunnamed
    exact Option.not_isSome_iff_eq_none.mp hunnamed

end SelectItem

/-! ### Statements -/

namespace Clauses

variable {clauses : Clauses} {origin : Origin} {settings : Settings} {p q : Plan}

/-- Some entry of the SELECT list is renamed. -/
def givesNames (clauses : Clauses) : Bool :=
  clauses.select.items.any SelectItem.isRenamed

/-- The new names of the renamed entries. -/
def newNames (clauses : Clauses) : Outcome (List Renaming) :=
  (clauses.select.items.mapM SelectItem.newName).map (List.filterMap id)

/-- The plan of the clauses in front of the SELECT list, over the plan of the FROM clause. -/
def beforeSelect (clauses : Clauses) (origin : Origin) (settings : Settings) (source : Plan) :
    Outcome Plan :=
  [filterStage clauses.filter, ⟨"Statement", origin, false, clauses.groupingOperator⟩,
    filterStage clauses.having].foldlM (Stage.run settings) source

/-- The second plan is the projection of the first one to the SELECT list. -/
def Projects (clauses : Clauses) (below p : Plan) : Prop :=
  ∃ notes columns, clauses.select.items.mapM SelectItem.lower = .ok columns ∧
    p = .unary notes (.projection columns) below

/-- The second plan shows the SELECT list of the first one: it is its projection, or the same plan
if the list keeps everything. -/
def Selects (clauses : Clauses) (below p : Plan) : Prop :=
  if SelectItem.isEverything clauses.select.items then p = below else clauses.Projects below p

theorem isNaming_of_groupingOperator {op : UnaryOp} (h : clauses.groupingOperator = .ok (some op)) :
    op.isNaming = false := by
  obtain ⟨aggregates, -, h⟩ := bind_eq_ok.mp h
  obtain ⟨grouped, -, h⟩ := bind_eq_ok.mp h
  cases grouped with
  | false => cases h
  | true =>
      obtain ⟨groups, -, h⟩ := bind_eq_ok.mp h
      cases h
      split <;> rfl

theorem isNaming_of_filterStage {clause : Option ConditionClause} {op : UnaryOp}
    (h : (filterStage clause).operator = .ok (some op)) : op.isNaming = false := by
  obtain ⟨condition, rfl⟩ := eq_of_filterStage h
  rfl

/-- Stages without new names keep the new names of the plan below them. -/
theorem namings_of_applied {stages : List Stage} (happlied : Applied stages p q)
    (hplain : ∀ stage ∈ stages, ∀ op, stage.operator = .ok (some op) → op.isNaming = false) :
    q.namings = p.namings := by
  induction happlied with
  | nil p => rfl
  | keep hmade rest ih => exact ih fun stage hstage => hplain stage (List.mem_cons_of_mem _ hstage)
  | put hmade hspan rest ih =>
      rw [ih fun stage hstage => hplain stage (List.mem_cons_of_mem _ hstage),
        Plan.namings_overlay, Plan.namings_unary (hplain _ List.mem_cons_self _ hmade)]

theorem namings_of_beforeSelect (h : clauses.beforeSelect origin settings p = .ok q) :
    q.namings = p.namings := by
  refine namings_of_applied (applied_of_foldlM h) fun stage hstage op hop => ?_
  simp only [List.mem_cons, List.not_mem_nil, or_false] at hstage
  rcases hstage with rfl | rfl | rfl
  · exact isNaming_of_filterStage hop
  · exact isNaming_of_groupingOperator hop
  · exact isNaming_of_filterStage hop

/-- A SELECT list without a projection keeps everything. -/
theorem selects_self (h : clauses.selectOperator = .ok none) : clauses.Selects p p := by
  unfold selectOperator at h
  unfold Selects
  split at h
  case isTrue heverything => rw [if_pos heverything]
  case isFalse hlist =>
    obtain ⟨_, -, hop⟩ := map_eq_ok.mp h
    cases hop

/-- The operator of a SELECT list is the projection to the list. -/
theorem selects_unary {op : UnaryOp} (h : clauses.selectOperator = .ok (some op)) (notes : Notes) :
    op.isNaming = false ∧ clauses.Selects p (.unary notes op p) := by
  unfold selectOperator at h
  unfold Selects
  split at h
  case isTrue heverything => cases h
  case isFalse hlist =>
    obtain ⟨columns, hcolumns, hop⟩ := map_eq_ok.mp h
    cases hop
    rw [if_neg hlist]
    exact ⟨rfl, notes, columns, hcolumns, rfl⟩

/-- Without an operator for new names, no entry is renamed. -/
theorem givesNames_of_namingOperator_none (h : clauses.namingOperator = .ok none) :
    clauses.givesNames = false := by
  obtain ⟨made, hmade, h⟩ := bind_eq_ok.mp h
  split at h
  case h_1 hnil => exact (SelectItem.filterMap_eq_nil_iff hmade).mp hnil
  case h_2 => cases h

/-- The operator for new names gives those of the renamed entries, and there are some. -/
theorem eq_of_namingOperator {op : UnaryOp} (h : clauses.namingOperator = .ok (some op)) :
    clauses.givesNames = true ∧
      ∃ renamings, op = .renameColumns renamings ∧ clauses.newNames = .ok renamings := by
  obtain ⟨made, hmade, h⟩ := bind_eq_ok.mp h
  split at h
  case h_1 => cases h
  case h_2 hsome =>
    cases h
    refine ⟨?_, _, rfl, map_eq_ok.mpr ⟨made, hmade, rfl⟩⟩
    rw [← Bool.not_eq_false]
    exact fun hplain => hsome ((SelectItem.filterMap_eq_nil_iff hmade).mpr hplain)

/-- The SELECT list and its new names come after the other clauses. -/
theorem foldlM_stages (clauses : Clauses) (origin : Origin) (settings : Settings) (p : Plan) :
    (clauses.stages origin).foldlM (Stage.run settings) p = (do
      let below ← clauses.beforeSelect origin settings p
      [⟨"SelectClause", clauses.select.origin, false, clauses.selectOperator⟩,
        ⟨"SelectClause", clauses.select.origin, false, clauses.namingOperator⟩].foldlM
          (Stage.run settings) below) := by
  rw [beforeSelect, ← List.foldlM_append]
  rfl

/-- A statement adds new names to those of its FROM clause exactly if some entry is renamed. They
are put over what shows the SELECT list of the clauses before it. -/
theorem namings_of_lower (h : (clauses.lower origin settings p).result = .ok q) :
    ∃ below, clauses.beforeSelect origin settings p = .ok below ∧
      if clauses.givesNames then
        ∃ naming, q.namings = naming :: p.namings ∧ clauses.newNames = .ok naming.renamings ∧
          clauses.Selects below naming.input
      else q.namings = p.namings := by
  obtain ⟨_, -, h⟩ := bind_eq_ok.mp (result_lower clauses origin settings p ▸ h)
  obtain ⟨_, -, h⟩ := bind_eq_ok.mp h
  obtain ⟨named, hstages, hq⟩ := bind_eq_ok.mp h
  have hnamings : q.namings = named.namings := by
    cases hq
    split
    · rfl
    · exact Plan.namings_withNotes _ _
  rw [hnamings]
  rw [foldlM_stages] at hstages
  obtain ⟨below, hbelow, hstages⟩ := bind_eq_ok.mp hstages
  refine ⟨below, hbelow, ?_⟩
  rw [← namings_of_beforeSelect hbelow]
  obtain ⟨selected, hnaming, hselected⟩ := (applied_of_foldlM hstages).of_cons
  have hselects : selected.namings = below.namings ∧ clauses.Selects below selected := by
    rcases hselected with ⟨hmade, rfl⟩ | ⟨op, notes, hmade, rfl⟩
    · exact ⟨rfl, selects_self hmade⟩
    · obtain ⟨hop, hselects⟩ := selects_unary (p := below) hmade notes
      exact ⟨Plan.namings_unary hop _ _, hselects⟩
  obtain ⟨_, hnil, hnamed⟩ := hnaming.of_cons
  cases hnil
  rcases hnamed with ⟨hmade, rfl⟩ | ⟨op, notes, hmade, rfl⟩
  · rw [if_neg (Bool.eq_false_iff.mp (givesNames_of_namingOperator_none hmade))]
    exact hselects.1
  · obtain ⟨hsome, renamings, rfl, hrenamings⟩ := eq_of_namingOperator hmade
    rw [if_pos hsome, Plan.namings_renameColumns, hselects.1]
    exact ⟨_, rfl, hrenamings, hselects.2⟩

end Clauses

/-- A statement of a query: its clauses, and what it selects from. -/
structure Statement where
  origin : Origin
  clauses : Clauses
  source : Sql

/-- The statement at the root of a query. -/
def Sql.statement? : Sql → Option Statement
  | .statement origin clauses source => some ⟨origin, clauses, source⟩
  | _ => none

/-- The statements of a query in preorder that give columns new names. -/
def Sql.namingStatements (q : Sql) : List Statement :=
  (q.nodes.filterMap statement?).filter (·.clauses.givesNames)

theorem Sql.namingStatements_statement (origin : Origin) (clauses : Clauses) (source : Sql) :
    (statement origin clauses source).namingStatements =
      if clauses.givesNames then ⟨origin, clauses, source⟩ :: source.namingStatements
      else source.namingStatements :=
  List.filter_cons

theorem Sql.namingStatements_binary (origin : Origin) (op : SqlBinary) (left right : Sql) :
    (binary origin op left right).namingStatements =
      left.namingStatements ++ right.namingStatements := by
  rw [namingStatements, nodes, List.filterMap_cons_none rfl, List.filterMap_append,
    List.filter_append]
  rfl

namespace Statement

variable (catalog : Catalog) (settings : Settings)

/-- The plan of the FROM clause and the clauses in front of the SELECT list. -/
def beforeSelect (s : Statement) : Outcome Plan := do
  let source ← (s.source.lower catalog settings).result
  s.clauses.beforeSelect s.origin settings source

/-- The new names are those of the statement, over what shows the SELECT list of the clauses before
it. -/
def IsNamedBy (s : Statement) (naming : Plan.Naming) : Prop :=
  s.clauses.newNames = .ok naming.renamings ∧
    ∃ below, s.beforeSelect catalog settings = .ok below ∧ s.clauses.Selects below naming.input

/-- The new names are put over the projection of the clauses before to the SELECT list. -/
def IsNamedOnProjection (s : Statement) (naming : Plan.Naming) : Prop :=
  ∃ below, s.beforeSelect catalog settings = .ok below ∧ s.clauses.Projects below naming.input

variable {catalog settings}

/-- The new names of a statement are over its projection exactly if its list does not keep
everything. -/
theorem IsNamedBy.isNamedOnProjection_iff {s : Statement} {naming : Plan.Naming}
    (h : s.IsNamedBy catalog settings naming) :
    s.IsNamedOnProjection catalog settings naming ↔
      SelectItem.isEverything s.clauses.select.items = false := by
  obtain ⟨-, below, hbelow, hselects⟩ := h
  unfold Clauses.Selects at hselects
  constructor
  · rintro ⟨other, hother, notes, columns, -, hinput⟩
    rw [hbelow] at hother
    cases hother
    refine Bool.eq_false_iff.mpr fun heverything => ?_
    rw [if_pos heverything, hinput] at hselects
    exact absurd (congrArg sizeOf hselects) (by simp)
  · intro hlist
    rw [if_neg (Bool.eq_false_iff.mp hlist)] at hselects
    exact ⟨below, hbelow, hselects⟩

theorem forall₂_isNamedOnProjection_iff {ss : List Statement} {namings : List Plan.Naming}
    (h : List.Forall₂ (IsNamedBy catalog settings) ss namings) :
    List.Forall₂ (IsNamedOnProjection catalog settings) ss namings ↔
      ∀ s ∈ ss, SelectItem.isEverything s.clauses.select.items = false := by
  induction h with
  | nil => simp
  | cons hhead htail ih =>
      rw [List.forall₂_cons, List.forall_mem_cons, ih, hhead.isNamedOnProjection_iff]

end Statement

variable {catalog : Catalog} {settings : Settings}

theorem SqlUnary.isNaming_of_operator {op : SqlUnary} {origin : Origin} {verbose : Bool}
    {made : UnaryOp} (h : op.operator origin verbose = .ok made) : made.isNaming = false := by
  cases op with
  | renameRelation relAlias | subquery relAlias =>
      cases h
      rfl
  | orderBy entries =>
      obtain ⟨keys, -, rfl⟩ := map_eq_ok.mp h
      rfl
  | limit count offset =>
      obtain ⟨_, -, h⟩ := bind_eq_ok.mp h
      obtain ⟨_, -, h⟩ := bind_eq_ok.mp h
      obtain ⟨_, -, h⟩ := bind_eq_ok.mp h
      cases h
      rfl

namespace Sql

/-- The new names in the plan of a query are those of its statements. -/
theorem namings_of_lower {q : Sql} {p : Plan} (h : (q.lower catalog settings).result = .ok p) :
    List.Forall₂ (Statement.IsNamedBy catalog settings) q.namingStatements p.namings := by
  induction q generalizing p with
  | relation origin name relAlias =>
      cases lowered_of_lower h with
      | relation hfind hspan =>
          rw [Plan.namings_overlay, Plan.namings_relation]
          exact .nil
      | aliased hfind hspan =>
          rw [Plan.namings_overlay]
          exact .nil
  | statement origin clauses source ih =>
      simp only [lower, Traced.result_bind, Traced.result_lift] at h
      obtain ⟨plan, hplan, h⟩ := bind_eq_ok.mp h
      obtain ⟨named, hnamed, h⟩ := bind_eq_ok.mp h
      obtain ⟨span, -, rfl⟩ := Plan.annotate_eq_ok.mp h
      obtain ⟨below, hbelow, hnamings⟩ := Clauses.namings_of_lower hnamed
      rw [Plan.namings_overlay, namingStatements_statement]
      split at hnamings
      case isTrue hsome =>
        obtain ⟨naming, hnaming, hnames, hselects⟩ := hnamings
        rw [if_pos hsome, hnaming]
        exact .cons ⟨hnames, below, bind_eq_ok.mpr ⟨plan, hplan, hbelow⟩, hselects⟩ (ih hplan)
      case isFalse hnone =>
        rw [if_neg hnone, hnamings]
        exact ih hplan
  | unary origin op child ih =>
      simp only [lower, Traced.result_bind, Traced.result_lift] at h
      obtain ⟨plan, hplan, h⟩ := bind_eq_ok.mp h
      obtain ⟨made, hmade⟩ := op.exists_operator hplan
      rw [op.result_lower hmade] at hplan
      obtain ⟨input, hinput, rfl⟩ := map_eq_ok.mp hplan
      obtain ⟨span, -, rfl⟩ := Plan.annotate_eq_ok.mp h
      rw [Plan.namings_overlay, Plan.namings_unary (op.isNaming_of_operator hmade)]
      exact ih hinput
  | binary origin op left right ihl ihr =>
      simp only [lower, Traced.result_bind, Traced.result_lift] at h
      obtain ⟨plan, hplan, h⟩ := bind_eq_ok.mp h
      obtain ⟨made, hmade⟩ := op.exists_operator hplan
      rw [op.result_lower hmade] at hplan
      obtain ⟨leftPlan, hleft, hplan⟩ := bind_eq_ok.mp hplan
      obtain ⟨rightPlan, hright, rfl⟩ := map_eq_ok.mp hplan
      obtain ⟨span, -, rfl⟩ := Plan.annotate_eq_ok.mp h
      rw [Plan.namings_overlay, Plan.namings_binary, namingStatements_binary]
      exact List.rel_append (ihl hleft) (ihr hright)

/-- A compiled plan gives new names once for each statement with a renamed entry, in preorder, and
nowhere else. They are over the projections of the statements exactly if no statement with a renamed
entry keeps everything. -/
theorem namings_of_compile {q : Sql} {p : Plan} (h : (q.compile catalog settings).result = .ok p) :
    List.Forall₂ (Statement.IsNamedBy catalog settings) q.namingStatements p.namings ∧
      (List.Forall₂ (Statement.IsNamedOnProjection catalog settings) q.namingStatements p.namings ↔
        ∀ s ∈ q.namingStatements, SelectItem.isEverything s.clauses.select.items = false) := by
  simp only [compile, Traced.result_bind, Traced.result_lift] at h
  obtain ⟨plan, hplan, h⟩ := bind_eq_ok.mp h
  cases Plan.eq_of_verifiedIf h
  have hnamed := namings_of_lower hplan
  exact ⟨hnamed, Statement.forall₂_isNamedOnProjection_iff hnamed⟩

end Sql

namespace Sample

/-- In the plan of `SELECT b AS x, a`, the new name is over the projection to `b` and `a`. -/
theorem namings_of_compile_renamed :
    ∃ p naming, ((statement renamed).compile Sample.catalog {}).result = .ok p ∧
      p.namings = [naming] ∧ naming.renamings = [⟨.string "x", ⟨.string "b", .null⟩⟩] ∧
      ∃ notes below, naming.input = .unary notes
        (.projection [.column ⟨.string "b", .null⟩, .column ⟨.string "a", .null⟩]) below := by
  obtain ⟨p, hp⟩ : ∃ p, ((statement renamed).compile Sample.catalog {}).result = .ok p := ⟨_, rfl⟩
  obtain ⟨hnamed, hprojected⟩ := Sql.namings_of_compile hp
  have hstatements : (statement renamed).namingStatements =
      [⟨origin, clauses renamed, source⟩] := rfl
  have hlist : ∀ s ∈ (statement renamed).namingStatements,
      SelectItem.isEverything s.clauses.select.items = false := by
    intro s hs
    rw [hstatements, List.mem_singleton] at hs
    subst hs
    rfl
  have hprojected := hprojected.mpr hlist
  rw [hstatements] at hnamed hprojected
  obtain ⟨naming, hnaming⟩ := List.length_eq_one_iff.mp hnamed.length_eq.symm
  rw [hnaming, List.forall₂_cons] at hnamed hprojected
  obtain ⟨⟨hnames, -⟩, -⟩ := hnamed
  obtain ⟨⟨below, -, notes, columns, hcolumns, hinput⟩, -⟩ := hprojected
  cases hcolumns
  exact ⟨p, naming, hp, hnaming, (Except.ok.inj hnames).symm, notes, below, hinput⟩

/-- In the plan of `SELECT * AS x`, the new name is over the relation itself. -/
theorem namings_of_compile_wildcard :
    ∃ p naming, ((statement [.column origin (.string "*") .null (.string "x")]).compile
        Sample.catalog {}).result = .ok p ∧
      p.namings = [naming] ∧ naming.renamings = [⟨.string "x", ⟨.string "*", .null⟩⟩] ∧
      ∀ notes columns below, naming.input ≠ .unary notes (.projection columns) below := by
  refine ⟨_, ⟨_, _⟩, rfl, rfl, rfl, ?_⟩
  intro notes columns below hinput
  cases hinput

end Sample

end Query

end LogicalPlan
