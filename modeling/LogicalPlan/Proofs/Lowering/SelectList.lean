import LogicalPlan.Proofs.Derivation.Located
import LogicalPlan.Proofs.Derivation.Resolution
import LogicalPlan.Proofs.Lowering.Stages
import LogicalPlan.Proofs.Query.WellFormed

/-!
# New names in SELECT lists

A SELECT list of plain columns becomes a projection, and the new names of its entries become a layer
of renamings above it. The renamings repeat the references of the entries, but these are resolved
among the projected columns. The columns of the statement have the requested names exactly if every
renamed entry refers to its own column there.
-/

namespace LogicalPlan

open Outcome

namespace Query

namespace SelectItem

/-- The entry is a plain column and no wildcard. -/
def isPlain : SelectItem → Bool
  | .column _ name _ _ => name != .string "*"
  | _ => false

/-- The column that an entry refers to. -/
def reference : SelectItem → Column
  | .column _ name relAlias _ => ⟨name, if relAlias.isTruthy then relAlias else .null⟩
  | .aggregate call => ⟨call.name, .null⟩
  | .computed c => ⟨c.name, c.relAlias⟩

/-- The new name of an entry. -/
def label : SelectItem → Value
  | .column _ _ _ label => label
  | _ => .null

/-- The renaming that is made for an entry. -/
def naming (item : SelectItem) : Option Renaming :=
  if item.label.isTruthy then some ⟨item.label, item.reference⟩ else none

/-- The column that an entry asks for: the one that it refers to, under the new name if it has one.
-/
def requested (item : SelectItem) (col : SchemaColumn) : SchemaColumn :=
  if item.label.isTruthy then col.renamed item.label else col

/-- Every renamed entry of the list refers to its own column among the projected ones, and to no
other one. -/
def FindOwn (items : List SelectItem) (columns : List SchemaColumn) : Prop :=
  ∀ (i : Nat) (hi : i < items.length), items[i].label.isTruthy = true →
    items[i].reference.FindsOnly columns i

instance (items : List SelectItem) (columns : List SchemaColumn) :
    Decidable (FindOwn items columns) :=
  decidable_of_iff (∀ (i : Nat) (hi : i < items.length), items[i].label.isTruthy = true →
    items[i].reference.FindsOnly columns i) Iff.rfl

/-- The schema that a SELECT list asks for, over the schema of its projection. -/
def requestedSchema (items : List SelectItem) (out : Schema) : Schema :=
  ⟨List.zipWith requested items out.columns⟩

theorem renamedBy_naming (item : SelectItem) :
    SchemaColumn.renamedBy item.naming = item.requested := by
  funext col
  unfold naming requested
  split <;> rfl

variable {items : List SelectItem}

theorem isEverything_of_isPlain (h : items.all isPlain = true) : isEverything items = false := by
  unfold isEverything
  split
  case h_1 item =>
    cases item with
    | column origin name relAlias label =>
        have plain : name ≠ .string "*" := by simpa [isPlain] using h
        simp [isWildcard, plain]
    | _ => rfl
  case h_2 => rfl

/-- A plain entry projects the column that it refers to. -/
theorem eq_of_lower {item : SelectItem} (h : item.isPlain = true) {entry : ProjectionItem}
    (hentry : item.lower = .ok entry) :
    entry = .column item.reference ∧ item.newName = .ok item.naming := by
  cases item with
  | column origin name relAlias label =>
      obtain ⟨c, hc, rfl⟩ := map_eq_ok.mp hentry
      have made := Column.eq_of_make hc
      refine ⟨congrArg _ made, ?_⟩
      simp only [newName, naming, SelectItem.label, hc, made, reference]
      by_cases hlabel : label.isTruthy = true <;> simp [hlabel, Except.map]
  | _ => cases h

theorem eq_of_mapM_lower (h : items.all isPlain = true) {columns : List ProjectionItem}
    (hcolumns : items.mapM lower = .ok columns) :
    columns = items.map (fun item => .column item.reference) ∧
      items.mapM newName = .ok (items.map naming) := by
  induction items generalizing columns with
  | nil =>
      cases hcolumns
      exact ⟨rfl, rfl⟩
  | cons item items ih =>
      simp only [List.all_cons, Bool.and_eq_true] at h
      rw [mapM_eq_ok] at hcolumns
      obtain ⟨entry, entries, hentry, hentries, rfl⟩ := List.forall₂_cons_left_iff.mp hcolumns
      obtain ⟨rfl, hname⟩ := eq_of_lower h.1 hentry
      obtain ⟨rfl, hnames⟩ := ih h.2 (mapM_eq_ok.mpr hentries)
      refine ⟨rfl, ?_⟩
      simp [hname, hnames]

/-- A projection to plain entries has the columns that these refer to. -/
theorem resolves_of_derive (h : items.all isPlain = true) {s out : Schema}
    {span : Option SourceSpan}
    (hout : (UnaryOp.projection (items.map fun item => .column item.reference)).derive span s =
      .ok out) :
    List.Forall₂ (fun item col => s.resolve item.reference span = .ok col) items out.columns := by
  obtain ⟨groups, hgroups, hflat⟩ := bind_eq_ok.mp hout
  cases hflat
  rw [mapM_eq_ok, List.forall₂_map_left_iff] at hgroups
  clear hout
  induction hgroups with
  | nil => exact .nil
  | cons hgroup hgroups ih =>
      rename_i item group items groups
      simp only [List.all_cons, Bool.and_eq_true] at h
      have plain : item.reference.isWildcard = false := by
        cases item with
        | column origin name relAlias label =>
            simpa [isPlain, reference, Column.isWildcard] using h.1
        | _ => cases h.1
      simp only [ProjectionItem.columnsIn, plain, Bool.false_eq_true, if_false] at hgroup
      obtain ⟨col, hcol, rfl⟩ := map_eq_ok.mp hgroup
      exact .cons hcol (ih h.2)

/-- The references of the renamed entries denote their own columns exactly if they find no other
ones. -/
theorem findOwn_iff {s out : Schema} {span : Option SourceSpan} (span' : Option SourceSpan)
    (hresolve : List.Forall₂ (fun item col => s.resolve item.reference span = .ok col) items
      out.columns) :
    FindOwn items out.columns ↔
      ∀ (i : Nat) (hi : i < items.length), items[i].label.isTruthy = true →
        out.indexOf items[i].reference span' = .ok i := by
  refine forall_congr' fun i => forall_congr' fun hi => ?_
  obtain ⟨hlength, hget⟩ := List.forall₂_iff_get.mp hresolve
  have hcol : i < out.columns.length := hlength ▸ hi
  have resolved : s.resolve items[i].reference span = .ok out.columns[i] := hget i hi hcol
  have accepts (hname : items[i].reference.name.toInt? = none) :
      out.columns[i].accepts items[i].reference = true :=
    Schema.accepts_of_resolve hname resolved
  rw [Schema.indexOf_eq_ok_iff_findsOnly (List.getElem?_eq_getElem hcol) accepts]

end SelectItem

namespace Clauses

variable {clauses : Clauses} {origin : Origin} {settings : Settings}

/-- The plan of a statement up to the projection of its SELECT list, over the plan of its FROM
clause. -/
def selected (clauses : Clauses) (origin : Origin) (settings : Settings) (source : Plan) :
    Outcome Plan := do
  checkIf settings source
  logged settings source
  ((clauses.stages origin).take 4).foldlM (Stage.run settings) source

/-- Above the projection there is only the stage of the new names. -/
theorem result_lower_of_selected {source p : Plan}
    (h : clauses.selected origin settings source = .ok p) :
    (clauses.lower origin settings source).result = (do
      let plan ← Stage.run settings p
        ⟨"SelectClause", clauses.select.origin, false, clauses.namingOperator⟩
      .ok (if clauses.select.distinct then plan
        else plan.warn Message.distinctMissing origin.span)) := by
  obtain ⟨_, hcheck, h⟩ := bind_eq_ok.mp h
  obtain ⟨_, hlog, h⟩ := bind_eq_ok.mp h
  have split : clauses.stages origin = (clauses.stages origin).take 4 ++
      [⟨"SelectClause", clauses.select.origin, false, clauses.namingOperator⟩] := rfl
  rw [result_lower, hcheck, hlog, ok_bind, ok_bind, split, List.foldlM_append, h, ok_bind,
    List.foldlM_cons, bind_assoc]
  rfl

/-- The projection of a list of plain columns, and what its columns are. -/
theorem exists_projection (hplain : clauses.select.items.all SelectItem.isPlain = true)
    {source p : Plan} (h : clauses.selected origin settings source = .ok p) :
    ∃ span below, clauses.select.origin.span = some span ∧
      p = .unary (Notes.overlay {} span clauses.select.origin.parenthesized [])
        (.projection (clauses.select.items.map fun item => .column item.reference)) below ∧
      clauses.select.items.mapM SelectItem.newName =
        .ok (clauses.select.items.map SelectItem.naming) := by
  obtain ⟨_, -, h⟩ := bind_eq_ok.mp h
  obtain ⟨_, -, h⟩ := bind_eq_ok.mp h
  have split : (clauses.stages origin).take 4 = (clauses.stages origin).take 3 ++
      [⟨"SelectClause", clauses.select.origin, false, clauses.selectOperator⟩] := rfl
  rw [split, List.foldlM_append] at h
  obtain ⟨below, -, h⟩ := bind_eq_ok.mp h
  rw [List.foldlM_cons] at h
  obtain ⟨plan, hrun, h⟩ := bind_eq_ok.mp h
  cases h
  obtain ⟨_, -, hrun⟩ := bind_eq_ok.mp hrun
  obtain ⟨op, hop, hrun⟩ := bind_eq_ok.mp hrun
  simp only [selectOperator, SelectItem.isEverything_of_isPlain hplain, Bool.false_eq_true,
    if_false] at hop
  obtain ⟨columns, hcolumns, rfl⟩ := map_eq_ok.mp hop
  obtain ⟨rfl, hnames⟩ := SelectItem.eq_of_mapM_lower hplain hcolumns
  obtain ⟨plan, hplan, hrun⟩ := bind_eq_ok.mp hrun
  obtain ⟨_, -, hrun⟩ := bind_eq_ok.mp hrun
  cases hrun
  obtain ⟨span, hspan, hplan⟩ := bind_eq_ok.mp hplan
  cases hplan
  unfold Origin.require at hspan
  split at hspan
  case h_1 placed =>
    cases hspan
    exact ⟨_, below, placed, rfl, hnames⟩
  case h_2 => cases hspan

/-- If all references find their own columns, the renamings lead to the columns that are asked
for. -/
theorem renamedColumns_naming {items : List SelectItem} {out : Schema} {span : Option SourceSpan}
    (hlength : items.length = out.columns.length)
    (hfound : ∀ (i : Nat) (hi : i < items.length),
      items[i].label.isTruthy = true → out.indexOf items[i].reference span = .ok i) :
    renamedColumns out span ((items.map SelectItem.naming).filterMap id) out.columns =
      .ok (SelectItem.requestedSchema items out).columns := by
  have aligned : renamedColumns out span
      ((items.map SelectItem.naming).filterMap id) ([] ++ out.columns) = .ok ([] ++
        List.zipWith SchemaColumn.renamedBy (items.map SelectItem.naming) out.columns) := by
    apply renamedColumns_aligned (by simpa using hlength)
    intro j r hr
    obtain ⟨item, hitem, hr⟩ := by simpa using hr
    obtain ⟨hj, rfl⟩ := List.getElem?_eq_some_iff.mp hitem
    unfold SelectItem.naming at hr
    split at hr
    case isTrue hlabel =>
      cases hr
      simpa using hfound j hj hlabel
    case isFalse => cases hr
  simpa [List.zipWith_map_left, SelectItem.renamedBy_naming, SelectItem.requestedSchema]
    using aligned

theorem logged_renameColumns (settings : Settings) (notes : Notes) (renamings : List Renaming)
    (p : Plan) : logged settings (.unary notes (.renameColumns renamings) p) = .ok () := by
  unfold logged
  split <;> rfl

/-- If all references find their own columns, the stage of the new names leads to the schema that is
asked for. -/
theorem exists_run_naming (settings : Settings) {p : Plan} {out : Schema}
    (hout : p.schema = .ok out)
    (hspan : clauses.select.origin.span.isSome = true)
    (hnames : clauses.select.items.mapM SelectItem.newName =
      .ok (clauses.select.items.map SelectItem.naming))
    (hlength : clauses.select.items.length = out.columns.length)
    (hkeys : (SelectItem.requestedSchema clauses.select.items out).IsKeyed)
    (hdistinct : (SelectItem.requestedSchema clauses.select.items out).columns.Pairwise
      fun a b => a.name.same b.name = false)
    (hfound : ∀ (i : Nat) (hi : i < clauses.select.items.length),
      clauses.select.items[i].label.isTruthy = true →
        out.indexOf clauses.select.items[i].reference clauses.select.origin.span = .ok i) :
    ∃ q, Stage.run settings p
        ⟨"SelectClause", clauses.select.origin, false, clauses.namingOperator⟩ = .ok q ∧
      q.schema = .ok (SelectItem.requestedSchema clauses.select.items out) := by
  obtain ⟨span, hspan⟩ := Option.isSome_iff_exists.mp hspan
  have named := renamedColumns_naming hlength hfound
  rw [hspan] at named
  simp only [Stage.run, Stage.check, Bool.false_eq_true, if_false, ok_bind, namingOperator, hnames]
  cases hsome : (clauses.select.items.map SelectItem.naming).filterMap id with
  | nil =>
      rw [hsome] at named
      have unchanged :
          out.columns = (SelectItem.requestedSchema clauses.select.items out).columns :=
        Except.ok.inj named
      exact ⟨p, rfl, hout.trans (congrArg (fun cols => Except.ok (Schema.mk cols)) unchanged)⟩
  | cons r rs =>
      rw [hsome] at named
      have unique : (SelectItem.requestedSchema clauses.select.items out).assertUnique (some span) =
          .ok () := by
        refine Schema.assertUnique_eq_ok (fun col hcol => (hkeys col hcol).key) ?_
        exact hdistinct.imp fun h => by simp [SchemaColumn.same_key, h]
      simp only [Plan.annotate, Origin.require, hspan, ok_bind, Plan.withNotes,
        logged_renameColumns]
      refine ⟨_, rfl, ?_⟩
      simp only [Plan.schema, hout, ok_bind, UnaryOp.derive, Notes.overlay, named]
      exact bind_eq_ok.mpr ⟨(), unique, rfl⟩

end Clauses

/-- The plan of a statement has the schema of the plan after its last stage. -/
theorem Sql.exists_lower_statement {clauses : Clauses} {origin : Origin} {source : Sql}
    {catalog : Catalog} {settings : Settings} {base p q : Plan}
    (hbase : (source.lower catalog settings).result = .ok base)
    (hselected : clauses.selected origin settings base = .ok p)
    (hrun : Stage.run settings p
      ⟨"SelectClause", clauses.select.origin, false, clauses.namingOperator⟩ = .ok q)
    (horigin : origin.span.isSome = true) {t : Schema} (ht : q.schema = .ok t) :
    ∃ r, ((Sql.statement origin clauses source).lower catalog settings).result = .ok r ∧
      r.schema = .ok t := by
  obtain ⟨span, hspan⟩ := Option.isSome_iff_exists.mp horigin
  have warned : (if clauses.select.distinct then q
      else q.warn Message.distinctMissing origin.span).schema = .ok t := by
    split
    · exact ht
    · exact (q.schema_withNotes_alike _).symm.eq_ok ht
  generalize hplan : (if clauses.select.distinct then q
    else q.warn Message.distinctMissing origin.span) = plan at warned
  refine ⟨plan.withNotes (plan.notes.overlay span origin.parenthesized []), ?_,
    (plan.schema_withNotes_alike _).symm.eq_ok warned⟩
  simp only [Sql.lower, Traced.result_bind, Traced.result_lift, hbase, ok_bind,
    Clauses.result_lower_of_selected hselected, hrun, hplan]
  simp only [Plan.annotate, Origin.require, hspan, ok_bind]

/-- A SELECT list of plain columns projects its input to the columns that its entries refer to. The
statement then has the requested columns in the order of the list, and each renaming finds the
column of its own entry, exactly if the renamed entries still refer to their own columns in the
projection: a position has to be the one of the entry, and a name must not be accepted by any other
column. -/
theorem Sql.lower_selectList {clauses : Clauses} {origin : Origin} {source : Sql}
    {catalog : Catalog} {settings : Settings} {base p : Plan} {out : Schema}
    (hplain : clauses.select.items.all SelectItem.isPlain = true)
    (horigin : origin.span.isSome = true)
    (hbase : (source.lower catalog settings).result = .ok base)
    (hselected : clauses.selected origin settings base = .ok p) (hout : p.schema = .ok out)
    (hkeys : (SelectItem.requestedSchema clauses.select.items out).IsKeyed)
    (hdistinct : (SelectItem.requestedSchema clauses.select.items out).columns.Pairwise
      fun a b => a.name.same b.name = false) :
    (∃ notes below s,
      p = .unary notes
        (.projection (clauses.select.items.map fun item => .column item.reference)) below ∧
      below.schema = .ok s ∧
      List.Forall₂ (fun item col => s.resolve item.reference notes.span = .ok col)
        clauses.select.items out.columns) ∧
    ((∃ q, ((Sql.statement origin clauses source).lower catalog settings).result = .ok q ∧
      q.schema = .ok (SelectItem.requestedSchema clauses.select.items out) ∧
      ∀ (i : Nat) (hi : i < clauses.select.items.length),
        clauses.select.items[i].label.isTruthy = true →
          out.indexOf clauses.select.items[i].reference clauses.select.origin.span = .ok i) ↔
      SelectItem.FindOwn clauses.select.items out.columns) := by
  obtain ⟨span, below, hspan, rfl, hnames⟩ := Clauses.exists_projection hplain hselected
  obtain ⟨s, hs, hderive⟩ := bind_eq_ok.mp hout
  have resolves := SelectItem.resolves_of_derive hplain hderive
  refine ⟨⟨_, below, s, rfl, hs, resolves⟩, ?_⟩
  rw [SelectItem.findOwn_iff clauses.select.origin.span resolves]
  constructor
  · rintro ⟨q, -, -, hfound⟩
    exact hfound
  · intro hfound
    obtain ⟨q, hrun, hq⟩ := Clauses.exists_run_naming settings hout
      (Option.isSome_iff_exists.mpr ⟨span, hspan⟩) hnames resolves.length_eq hkeys hdistinct hfound
    obtain ⟨r, hr, ht⟩ := Sql.exists_lower_statement hbase hselected hrun horigin hq
    exact ⟨r, hr, ht, hfound⟩

/-- The statement over `R(a, b)` with the list `b AS x, a` has the columns `x, a`. -/
theorem Sample.exists_lower_renamed :
    ∃ q, ((statement renamed).lower catalog {}).result = .ok q ∧
      q.schema = .ok ⟨[⟨.string "x", .string "R", .string "string"⟩,
        ⟨.string "a", .string "R", .string "number"⟩]⟩ := by
  have names := @Sql.lower_selectList (clauses renamed) origin source catalog {} _ _ _ (by decide)
    rfl rfl rfl rfl (by decide) (by decide)
  obtain ⟨q, hq, hschema, -⟩ := names.2.mpr (by decide)
  exact ⟨q, hq, hschema⟩

/-- The SELECT list `[2] AS x, a`. -/
def Sample.misnamed : List SelectItem :=
  [.column Sample.origin (.int 2) .null (.string "x"),
    .column Sample.origin (.string "a") .null .null]

/-- The statement over `R(a, b)` with the list `[2] AS x, a` asks for the columns `x, a` and has the
columns `b, x`: the renaming of its first entry finds the projected column of the second one. -/
theorem Sample.exists_lower_misnamed :
    misnamed.all SelectItem.isPlain = true ∧
    ∃ base p out q t, (source.lower catalog {}).result = .ok base ∧
      (clauses misnamed).selected origin {} base = .ok p ∧ p.schema = .ok out ∧
      (SelectItem.requestedSchema misnamed out).names = [.string "x", .string "a"] ∧
      ((statement misnamed).lower catalog {}).result = .ok q ∧ q.schema = .ok t ∧
      t.names = [.string "b", .string "x"] :=
  ⟨rfl, _, _, _, _, _, rfl, rfl, rfl, rfl, rfl, rfl, rfl⟩

end Query

end LogicalPlan
