import LogicalPlan.Proofs.Derivation.Resolution
import LogicalPlan.Proofs.Plan.Positions

/-!
# Located faults of derivations

Deriving the schema of a plan reports faulty queries only, at the positions of operators and column
references, provided that the plan is sound: it has positions everywhere, its names can be keys, its
operators have labels and its base relations have schemas. A sound plan also passes the verification
of its positions.
-/

namespace LogicalPlan

open Outcome

/-! ### Messages whose parameters have texts -/

/-- A template can be left unfilled, but no parameter with a text makes it textless. -/
theorem Template.fillFrom_ne_textless {params : Members} {field : Option (List Char)}
    {rest : List Char} {cause : TypeFault}
    (h : ∀ key v, params.get? key = some v → ∃ text, v.text? = .ok text) :
    fillFrom params field rest ≠ .error (.textless cause) := by
  have map_ne (f : List Char → List Char) {x : Except TemplateFault (List Char)}
      (hx : x ≠ .error (.textless cause)) : x.map f ≠ .error (.textless cause) := by
    cases x with
    | error fault => exact hx
    | ok cs => simp [Except.map]
  fun_induction fillFrom params field rest with
  | case5 c d rest hbrace ih => exact map_ne _ ih
  | case6 d rest hbrace ih => exact ih
  | case8 c d rest hbrace hopening hclosing ih => exact map_ne _ ih
  | case11 name rest field hname v hv cause' htext =>
      obtain ⟨text, ht⟩ := h field v hv
      rw [ht] at htext
      cases htext
  | case12 name rest field hname v hv text htext ih => exact map_ne _ ih
  | case13 name c rest hclosing ih => exact ih
  | _ => simp

/-- A message whose parameters have texts has a text. -/
theorem Message.exists_resolve (key : String) {params : Members}
    (h : ∀ name v, params.get? name = some v → ∃ text, v.text? = .ok text) :
    ∃ text, resolve key params = .ok text := by
  unfold resolve
  split
  case h_1 => exact ⟨_, rfl⟩
  case h_2 template _ =>
      unfold Template.fill
      cases hfill : Template.fillFrom params none template.toList with
      | ok cs => exact ⟨_, rfl⟩
      | error fault =>
          cases fault with
          | textless cause => exact absurd hfill (Template.fillFrom_ne_textless h)
          | _ => exact ⟨_, rfl⟩

theorem ofQuery_joinColumnMissing (name : String) (span : Option SourceSpan) :
    Fault.ofQuery Message.joinColumnMissing (Members.ofFields [("column", .string name)]) span =
      .query Message.joinColumnMissing (Members.ofFields [("column", .string name)]) span := by
  have textful : ∀ key v, (Members.ofFields [("column", .string name)]).get? key = some v →
      ∃ text, v.text? = .ok text := by
    intro key v hv
    have hmem : (.string key, v) ∈ Members.ofFields [("column", .string name)] := by
      obtain ⟨_, _, heq, -⟩ := List.lookup_eq_some_iff.mp hv
      simp [heq]
    obtain ⟨-, rfl⟩ : key = "column" ∧ v = .string name := by simpa [Members.ofFields] using hmem
    exact ⟨name, rfl⟩
  obtain ⟨text, htext⟩ := Message.exists_resolve Message.joinColumnMissing textful
  simp only [Fault.ofQuery, htext]

/-! ### Schemas whose columns can be keys -/

/-- Name and alias of the column can be keys. -/
def SchemaColumn.IsKeyed (col : SchemaColumn) : Prop :=
  col.name.isHashable = true ∧ col.relAlias.isHashable = true

/-- Names and aliases of all columns can be keys. -/
def Schema.IsKeyed (s : Schema) : Prop :=
  ∀ col ∈ s.columns, col.IsKeyed

instance (col : SchemaColumn) : Decidable col.IsKeyed :=
  inferInstanceAs (Decidable (_ ∧ _))

instance (s : Schema) : Decidable s.IsKeyed :=
  inferInstanceAs (Decidable (∀ _ ∈ _, _))

theorem SchemaColumn.IsKeyed.key {col : SchemaColumn} (h : col.IsKeyed) :
    col.key.isHashable = true := by
  simp [SchemaColumn.key, Value.isHashable, Value.areHashable, h.1, h.2]

variable {P : SourceSpan → Prop} {span : Option SourceSpan}

namespace Schema

theorem indexOf_yields (s : Schema) (c : Column) (hspan : IsPlaced P span) :
    Yields P (· < s.size) (s.indexOf c span) := by
  refine .assuming (fun i => lt_size_of_indexOf) ?_
  unfold indexOf
  cases c.name.toInt? with
  | some i => exact .ite (fun _ => id) fun _ => isLocated_query hspan
  | none =>
      match candidates c 0 s.columns with
      | [] => exact isLocated_query hspan
      | [i] => exact id
      | i :: j :: rest => exact isLocated_query hspan

theorem resolve_yields {s : Schema} (hs : s.IsKeyed) (c : Column) (hspan : IsPlaced P span) :
    Yields P SchemaColumn.IsKeyed (s.resolve c span) := by
  apply (s.indexOf_yields c hspan).bind
  intro i hi
  rw [List.getElem?_eq_getElem hi]
  exact hs _ (List.getElem_mem hi)

theorem selectAll_yields {s : Schema} (hs : s.IsKeyed) (relAlias : Value)
    (hspan : IsPlaced P span) :
    Yields P (fun cols => ∀ col ∈ cols, col.IsKeyed) (s.selectAll relAlias span) := by
  refine .ite (fun _ => hs) ?_
  intro _
  cases h : s.columns.filter fun col => col.relAlias.same relAlias with
  | nil => exact isLocated_query hspan
  | cons col cols =>
      intro col' hcol'
      exact hs col' (List.mem_filter.mp (h ▸ hcol')).1

theorem uniqueAfter_yields (text : String) {columns : List SchemaColumn}
    (hcolumns : ∀ col ∈ columns, col.IsKeyed) (seen : List Value) (hspan : IsPlaced P span) :
    Yields P (fun _ => True) (uniqueAfter text span seen columns) := by
  induction columns generalizing seen with
  | nil => trivial
  | cons col cols ih =>
      refine .ite (fun h => ?_) fun _ => .ite (fun _ => isLocated_query hspan) fun _ => ?_
      · rw [(hcolumns col (by simp)).key] at h
        cases h
      · exact ih (fun col' hcol' => hcolumns col' (by simp [hcol'])) _

theorem assertUnique_yields {s : Schema} (hs : s.IsKeyed) (hspan : IsPlaced P span) :
    Yields P (fun _ => True) (s.assertUnique span) :=
  uniqueAfter_yields _ hs _ hspan

theorem concat_yields {s t : Schema} (hs : s.IsKeyed) (ht : t.IsKeyed) (hspan : IsPlaced P span) :
    Yields P IsKeyed (s.concat t span) := by
  have combined : IsKeyed ⟨s.columns ++ t.columns⟩ := fun col hcol =>
    (List.mem_append.mp hcol).elim (hs col) (ht col)
  exact (assertUnique_yields combined hspan).bind fun _ _ => combined

theorem IsKeyed.filter {s : Schema} (hs : s.IsKeyed) (keep : SchemaColumn → Bool) :
    IsKeyed ⟨s.columns.filter keep⟩ :=
  fun col hcol => hs col (List.mem_filter.mp hcol).1

theorem IsKeyed.names {s : Schema} (hs : s.IsKeyed) : s.names.all Value.isHashable = true := by
  simp only [Schema.names, List.all_map, List.all_eq_true]
  exact fun col hcol => (hs col hcol).1

end Schema

/-! ### Labels -/

/-- The expression has a text. -/
def Expr.HasText (e : Expr) : Prop :=
  Gives (fun _ => True) e.text

/-- The operator has a label. -/
def UnaryOp.HasLabel (op : UnaryOp) : Prop :=
  Gives (fun _ => True) op.label

/-- The operator has a label. -/
def BinaryOp.HasLabel (op : BinaryOp) : Prop :=
  Gives (fun _ => True) op.label

/-- The root of the plan has a label. -/
def Plan.HasLabel (p : Plan) : Prop :=
  Gives (fun _ => True) p.label

theorem Plan.HasLabel.withNotes {p : Plan} (h : p.HasLabel) (notes : Notes) :
    (p.withNotes notes).HasLabel := by
  cases p with
  | relation => exact h
  | unary => exact h
  | binary => exact h

/-- The functions of an operator with a label are texts. -/
theorem UnaryOp.HasLabel.function {groups : List Column} {aggregates : List Aggregate}
    (h : (UnaryOp.groupBy groups aggregates).HasLabel) {agg : Aggregate} (hagg : agg ∈ aggregates) :
    ∃ function, agg.function = .string function := by
  obtain ⟨_, hlabel, -⟩ := gives_iff.mp h
  obtain ⟨texts, htexts, -⟩ := bind_eq_ok.mp hlabel
  obtain ⟨text, -, htext⟩ := exists_of_mapM_eq_ok htexts hagg
  unfold Aggregate.text at htext
  split at htext
  case h_1 function hfunction => exact ⟨function, hfunction⟩
  case h_2 => cases htext

/-- The listed columns of a join with a label are texts. -/
theorem BinaryOp.HasLabel.column {kind : JoinKind} {columns : List Value}
    (h : (BinaryOp.join kind (.natural (some columns))).HasLabel) {c : Value} (hc : c ∈ columns) :
    ∃ name, c = .string name := by
  obtain ⟨_, hlabel, -⟩ := gives_iff.mp h
  obtain ⟨_, htext, -⟩ := bind_eq_ok.mp hlabel
  obtain ⟨texts, htexts, -⟩ := map_eq_ok.mp htext
  obtain ⟨text, -, hname⟩ := exists_of_mapM_eq_ok htexts hc
  cases c with
  | string name => exact ⟨name, rfl⟩
  | _ => cases hname

/-! ### Sound operators -/

/-- All parts of the expression have positions with the property. -/
def Expr.IsPlaced (P : SourceSpan → Prop) (e : Expr) : Prop :=
  ∀ part ∈ e.walk, LogicalPlan.IsPlaced P part.span

theorem Expr.IsPlaced.isPositioned {e : Expr} (h : e.IsPlaced P) : e.IsPositioned := by
  intro part hpart
  obtain ⟨span, hspan, -⟩ := h part hpart
  simp [hspan]

theorem Expr.mem_walk_self (e : Expr) : e ∈ e.walk := by
  cases e with
  | column => simp [walk]
  | apply => simp [walk]

/-- The reference of a column expression is only resolved where its position has been found. -/
theorem Expr.typeIn_column (origin : Origin) (c : Column) (s : Schema) (span : Option SourceSpan) :
    (Expr.column origin c).typeIn s span =
      (s.resolve c (origin.span.or span)).map (·.type) := by
  simp only [typeIn, walk, List.forM_eq_forM, List.forM_cons, List.forM_nil, discard_eq_bind,
    bind_assoc, pure_eq, ok_bind, Schema.resolve, map_eq_bind]
  cases h : s.indexOf c (origin.span.or span) with
  | error fault => rfl
  | ok i =>
      rw [(s.indexOf_alike _ none c).eq_ok h]
      rfl

theorem Expr.typeIn_yields {e : Expr} (he : e.IsPlaced P) {s : Schema} (hs : s.IsKeyed)
    (span : Option SourceSpan) : Yields P (fun _ => True) (e.typeIn s span) := by
  have found {origin : Origin} {c : Column} (h : .column origin c ∈ e.walk) :
      LogicalPlan.IsPlaced P (origin.span.or span) := by
    obtain ⟨found, hfound, hP⟩ := he _ h
    change origin.span = some found at hfound
    exact ⟨found, by simp [hfound], hP⟩
  cases e with
  | column origin c =>
      rw [typeIn_column]
      apply (Schema.resolve_yields hs c (found (mem_walk_self _))).map
      intro _ _
      exact trivial
  | apply origin datatype func args =>
      refine Yields.bind (Q := fun _ => True) (.forM fun part hpart => ?_) fun _ _ => trivial
      cases part with
      | column origin' c => exact (s.indexOf_yields c (found hpart)).discard
      | apply => trivial

/-- The names and aliases that the operator puts into a schema. -/
def UnaryOp.givenNames : UnaryOp → List Value
  | .projection columns => columns.flatMap fun
    | .column _ => []
    | .computed name relAlias _ => [name, relAlias]
  | .groupBy _ aggregates => aggregates.map (·.name)
  | .renameColumns renamings => renamings.map (·.newName)
  | .renameRelation relAlias => [relAlias]
  | _ => []

/-- The operator has positions throughout, gives names that can be keys, and has a label. -/
structure UnaryOp.IsSound (P : SourceSpan → Prop) (op : UnaryOp) : Prop where
  placed : ∀ e ∈ op.expressions, e.IsPlaced P
  keyed : ∀ v ∈ op.givenNames, v.isHashable = true
  labelled : op.HasLabel

/-- The operator has positions throughout, its condition is known, and it has a label. -/
structure BinaryOp.IsSound (P : SourceSpan → Prop) (op : BinaryOp) : Prop where
  placed : ∀ e ∈ op.expressions, e.IsPlaced P
  known : ∀ kind v, op ≠ .join kind (.unknown v)
  labelled : op.HasLabel

/-- A computed column has positions throughout, and its name and alias can be keys. -/
def ProjectionItem.IsSound (P : SourceSpan → Prop) : ProjectionItem → Prop
  | .column _ => True
  | .computed name relAlias child =>
    name.isHashable = true ∧ relAlias.isHashable = true ∧ child.IsPlaced P

theorem UnaryOp.isSound_projection {columns : List ProjectionItem}
    (h : ∀ item ∈ columns, item.IsSound P) (hlabel : (UnaryOp.projection columns).HasLabel) :
    (UnaryOp.projection columns).IsSound P where
  placed e he := by
    obtain ⟨item, hitem, hsome⟩ := List.mem_filterMap.mp he
    cases item with
    | column c => cases hsome
    | computed name relAlias child =>
        cases hsome
        exact (h _ hitem).2.2
  keyed v hv := by
    obtain ⟨item, hitem, hv⟩ := List.mem_flatMap.mp hv
    cases item with
    | column c => cases hv
    | computed name relAlias child =>
        obtain ⟨hname, hrel, -⟩ := h _ hitem
        rcases List.mem_pair.mp hv with rfl | rfl
        · exact hname
        · exact hrel
  labelled := hlabel

theorem UnaryOp.isSound_selection {e : Expr} (he : e.IsPlaced P)
    (hlabel : (UnaryOp.selection e).HasLabel) :
    (UnaryOp.selection e).IsSound P where
  placed e' he' := by
    rw [List.mem_singleton.mp he']
    exact he
  keyed := nofun
  labelled := hlabel

theorem UnaryOp.isSound_renameRelation {relAlias : Value} (h : relAlias.isHashable = true) :
    (UnaryOp.renameRelation relAlias).IsSound P where
  placed := nofun
  keyed v hv := by
    rw [List.mem_singleton.mp hv]
    exact h
  labelled := trivial

theorem UnaryOp.isSound_orderBy {keys : List SortKey} (hlabel : (UnaryOp.orderBy keys).HasLabel) :
    (UnaryOp.orderBy keys).IsSound P where
  placed := nofun
  keyed := nofun
  labelled := hlabel

theorem UnaryOp.isSound_groupBy {groups : List Column} {aggregates : List Aggregate}
    (h : ∀ agg ∈ aggregates, agg.name.isHashable = true)
    (hlabel : (UnaryOp.groupBy groups aggregates).HasLabel) :
    (UnaryOp.groupBy groups aggregates).IsSound P where
  placed := nofun
  keyed v hv := by
    obtain ⟨agg, hagg, rfl⟩ := List.mem_map.mp hv
    exact h agg hagg
  labelled := hlabel

theorem UnaryOp.isSound_renameColumns {renamings : List Renaming}
    (h : ∀ r ∈ renamings, r.newName.isHashable = true) :
    (UnaryOp.renameColumns renamings).IsSound P where
  placed := nofun
  keyed v hv := by
    obtain ⟨r, hr, rfl⟩ := List.mem_map.mp hv
    exact h r hr
  labelled := trivial

theorem BinaryOp.isSound_theta {kind : JoinKind} {e : Expr} (he : e.IsPlaced P)
    (hlabel : (BinaryOp.join kind (.theta e)).HasLabel) :
    (BinaryOp.join kind (.theta e)).IsSound P where
  placed e' he' := by
    rw [List.mem_singleton.mp he']
    exact he
  known := nofun
  labelled := hlabel

theorem BinaryOp.isSound_natural {kind : JoinKind} {columns : Option (List Value)}
    (hlabel : (BinaryOp.join kind (.natural columns)).HasLabel) :
    (BinaryOp.join kind (.natural columns)).IsSound P where
  placed := nofun
  known := nofun
  labelled := hlabel

theorem BinaryOp.isSound_of_plain {op : BinaryOp} (hlabel : op.HasLabel)
    (hplain : op.expressions = [])
    (hknown : ∀ kind v, op ≠ .join kind (.unknown v)) : op.IsSound P where
  placed e he := by
    rw [hplain] at he
    cases he
  known := hknown
  labelled := hlabel

theorem ProjectionItem.columnsIn_yields {columns : List ProjectionItem}
    (h : (UnaryOp.projection columns).IsSound P) {item : ProjectionItem} (hitem : item ∈ columns)
    {s : Schema} (hs : s.IsKeyed) (hspan : IsPlaced P span) :
    Yields P (fun cols => ∀ col ∈ cols, col.IsKeyed) (item.columnsIn s span) := by
  cases item with
  | column c =>
      refine .ite (fun _ => Schema.selectAll_yields hs _ hspan) ?_
      intro _
      exact (Schema.resolve_yields hs c hspan).map fun col hcol => by simpa using hcol
  | computed name relAlias child =>
      have placed : child.IsPlaced P := h.placed child (List.mem_filterMap.mpr ⟨_, hitem, rfl⟩)
      have given (v : Value) (hv : v ∈ [name, relAlias]) : v.isHashable = true :=
        h.keyed v (List.mem_flatMap.mpr ⟨_, hitem, hv⟩)
      refine (Expr.typeIn_yields placed hs span).bind ?_
      intro type _ col hcol
      rw [List.mem_singleton.mp hcol]
      exact ⟨given name (by simp), given relAlias (by simp)⟩

theorem Aggregate.columnIn_yields {groups : List Column} {aggregates : List Aggregate}
    (h : (UnaryOp.groupBy groups aggregates).IsSound P) {agg : Aggregate} (hagg : agg ∈ aggregates)
    {s : Schema} (hs : s.IsKeyed) (hspan : IsPlaced P span) :
    Yields P SchemaColumn.IsKeyed (agg.columnIn s span) := by
  obtain ⟨function, hfunction⟩ := h.labelled.function hagg
  have hname : agg.name.isHashable = true := h.keyed _ (List.mem_map.mpr ⟨agg, hagg, rfl⟩)
  simp only [columnIn, hfunction]
  cases agg.column with
  | none => exact ⟨hname, rfl⟩
  | some c => exact (Schema.resolve_yields hs c hspan).bind fun _ _ => ⟨hname, rfl⟩

theorem renamedColumns_yields (s : Schema) {renamings : List Renaming}
    (h : ∀ r ∈ renamings, r.newName.isHashable = true) {columns : List SchemaColumn}
    (hcolumns : ∀ col ∈ columns, col.IsKeyed) (hspan : IsPlaced P span) :
    Yields P (fun cols => ∀ col ∈ cols, col.IsKeyed) (renamedColumns s span renamings columns) := by
  induction renamings generalizing columns with
  | nil => exact hcolumns
  | cons r rest ih =>
      apply (s.indexOf_yields r.column hspan).bind
      intro i _
      refine ih (fun r' hr' => h r' (by simp [hr'])) ?_
      intro col hcol
      obtain ⟨j, hj, rfl⟩ := List.getElem_of_mem hcol
      rw [List.getElem_modify]
      have keyed := hcolumns _ (List.getElem_mem (by simpa using hj))
      split
      · exact ⟨h r (by simp), keyed.2⟩
      · exact keyed

/-- A sound unary operator derives a schema, or a query is reported as faulty. -/
theorem UnaryOp.derive_yields {op : UnaryOp} (h : op.IsSound P) {s : Schema} (hs : s.IsKeyed)
    (hspan : IsPlaced P span) : Yields P Schema.IsKeyed (op.derive span s) := by
  cases op with
  | selection condition =>
      have placed : condition.IsPlaced P := h.placed condition (by simp [expressions])
      apply (Expr.typeIn_yields placed hs span).discard.bind
      intro _ _
      exact hs
  | projection columns =>
      refine (Yields.mapM fun item hitem => item.columnsIn_yields h hitem hs hspan).bind ?_
      intro groups hgroups col hcol
      obtain ⟨cols, hcols, hcol⟩ := List.mem_flatten.mp hcol
      exact hgroups cols hcols col hcol
  | orderBy keys =>
      refine Yields.bind (Q := fun _ => True) (.forM fun key _ => ?_) fun _ _ => hs
      exact (s.indexOf_yields key.column hspan).discard
  | groupBy groups aggregates =>
      apply (Yields.mapM fun c _ => Schema.resolve_yields hs c hspan).bind
      intro grouped hg
      refine (Yields.mapM fun agg hagg => agg.columnIn_yields h hagg hs hspan).bind
        fun computed hc => ?_
      have output : Schema.IsKeyed ⟨grouped ++ computed⟩ := fun col hcol =>
        (List.mem_append.mp hcol).elim (hg col) (hc col)
      apply (Schema.assertUnique_yields output hspan).bind
      intro _ _
      exact output
  | renameColumns renamings =>
      have named : ∀ r ∈ renamings, r.newName.isHashable = true := fun r hr =>
        h.keyed _ (List.mem_map.mpr ⟨r, hr, rfl⟩)
      apply (renamedColumns_yields s named hs hspan).bind
      intro columns hcolumns
      apply (Schema.assertUnique_yields hcolumns hspan).bind
      intro _ _
      exact hcolumns
  | renameRelation relAlias =>
      intro col hcol
      obtain ⟨col', hcol', rfl⟩ := List.mem_map.mp hcol
      exact ⟨(hs col' hcol').1, h.keyed relAlias (by simp [givenNames])⟩

theorem joinColumns_yields {kind : JoinKind} {columns : Option (List Value)}
    (h : (BinaryOp.join kind (.natural columns)).IsSound P) (shared : List Value)
    (hspan : IsPlaced P span) : Yields P (fun _ => True) (joinColumns columns shared span) := by
  cases columns with
  | none => trivial
  | some columns =>
      refine Yields.bind (Q := fun _ => True) (.forM fun c hc => ?_) fun _ _ => trivial
      refine .ite (fun _ => trivial) ?_
      intro _
      obtain ⟨name, rfl⟩ := h.labelled.column hc
      rw [ofQuery_joinColumnMissing]
      exact isLocated_query hspan

theorem JoinCondition.derive_yields {kind : JoinKind} {condition : JoinCondition}
    (h : (BinaryOp.join kind condition).IsSound P) {s t : Schema} (hs : s.IsKeyed) (ht : t.IsKeyed)
    (hspan : IsPlaced P span) : Yields P Schema.IsKeyed (condition.derive span s t) := by
  cases condition with
  | theta condition =>
      have placed : condition.IsPlaced P := h.placed condition (by simp [BinaryOp.expressions])
      apply (Schema.concat_yields hs ht hspan).bind
      intro combined hcombined
      apply (Expr.typeIn_yields placed hcombined span).discard.bind
      intro _ _
      exact hcombined
  | natural columns =>
      have shared : Gives (fun _ => True) (s.sharedNames t) := by
        simp only [Schema.sharedNames, hs.names, ht.names]
        trivial
      apply shared.yields.bind
      intro names _
      apply (joinColumns_yields h names hspan).bind
      intro compared _
      exact Schema.concat_yields hs (ht.filter _) hspan
  | unknown v => exact absurd rfl (h.known kind v)

/-- A sound binary operator derives a schema, or a query is reported as faulty. -/
theorem BinaryOp.derive_yields {op : BinaryOp} (h : op.IsSound P) {s t : Schema} (hs : s.IsKeyed)
    (ht : t.IsKeyed) (hspan : IsPlaced P span) : Yields P Schema.IsKeyed (op.derive span s t) := by
  cases op with
  | cross => exact Schema.concat_yields hs ht hspan
  | join kind condition => exact condition.derive_yields h hs ht hspan
  | semi keepsLeft =>
      cases keepsLeft with
      | true => exact hs
      | false => exact ht
  | anti => exact hs
  | union | intersect | difference =>
      exact .ite (fun _ => hs) fun _ => isLocated_query hspan
  | division =>
      refine .ite (fun hnames => ?_) fun _ =>
        .ite (fun _ => hs.filter _) fun _ => isLocated_query hspan
      simp [hs.names, ht.names] at hnames

/-! ### Sound plans -/

namespace Plan

/-- All operators of the plan are sound and have positions with the property, and its base relations
have labels and schemas. -/
def IsSound (P : SourceSpan → Prop) : Plan → Prop
  | .relation notes base =>
    IsPlaced P notes.span ∧ (Plan.relation notes base).HasLabel ∧
      ∃ s, base.schema = some s ∧ s.IsKeyed
  | .unary notes op input => IsPlaced P notes.span ∧ op.IsSound P ∧ input.IsSound P
  | .binary notes op left right =>
    IsPlaced P notes.span ∧ op.IsSound P ∧ left.IsSound P ∧ right.IsSound P

theorem IsSound.root {p : Plan} (h : p.IsSound P) : IsPlaced P p.span := by
  cases p with
  | relation => exact h.1
  | unary => exact h.1
  | binary => exact h.1

theorem IsSound.label {p : Plan} (h : p.IsSound P) : p.HasLabel := by
  cases p with
  | relation => exact h.2.1
  | unary => exact h.2.1.labelled
  | binary => exact h.2.1.labelled

/-- A sound plan has a schema, or a query is reported as faulty at a position of the plan. -/
theorem schema_yields {p : Plan} (h : p.IsSound P) : Yields P Schema.IsKeyed p.schema := by
  induction p with
  | relation notes base =>
      obtain ⟨-, -, s, hs, hkeyed⟩ := h
      simpa [schema, hs] using hkeyed
  | unary notes op input ih =>
      exact (ih h.2.2).bind fun s hs => op.derive_yields h.2.1 hs h.1
  | binary notes op left right ihl ihr =>
      exact (ihl h.2.2.1).bind fun s hs => (ihr h.2.2.2).bind fun t ht =>
        op.derive_yields h.2.1 hs ht h.1

theorem IsSound.of_mem_children {p q : Plan} (h : p.IsSound P) (hq : q ∈ p.children) :
    q.IsSound P := by
  cases p with
  | relation notes base => cases hq
  | unary notes op input =>
      rw [List.mem_singleton.mp hq]
      exact h.2.2
  | binary notes op left right =>
      rcases List.mem_pair.mp hq with rfl | rfl
      · exact h.2.2.1
      · exact h.2.2.2

theorem IsSound.of_mem_walk {p node : Plan} (h : p.IsSound P) (hnode : node ∈ p.walk) :
    node.IsSound P :=
  Plan.of_mem_walk (fun _ hp _ hq => hp.of_mem_children hq) h hnode

theorem IsSound.placed {p : Plan} (h : p.IsSound P) {e : Expr} (he : e ∈ p.expressions) :
    e.IsPlaced P := by
  cases p with
  | relation => cases he
  | unary notes op input => exact h.2.1.placed e he
  | binary notes op left right => exact h.2.1.placed e he

/-- A sound plan has positions everywhere. -/
theorem IsSound.verifyPositions {p : Plan} (h : p.IsSound P) : p.verifyPositions = .ok () := by
  refine verifyPositions_eq_ok.mpr ⟨fun node hnode => ?_, fun e he => ?_⟩
  · obtain ⟨span, hspan, -⟩ := (h.of_mem_walk hnode).root
    simp [hspan]
  · obtain ⟨node, hnode, he⟩ := List.mem_flatMap.mp he
    exact ((h.of_mem_walk hnode).placed he).isPositioned

/-- The plan is sound up to the position of its root. -/
def IsSoundBelow (P : SourceSpan → Prop) (p : Plan) : Prop :=
  ∀ notes : Notes, IsPlaced P notes.span → (p.withNotes notes).IsSound P

theorem IsSound.below {p : Plan} (h : p.IsSound P) : p.IsSoundBelow P := by
  intro notes hnotes
  cases p with
  | relation => exact ⟨hnotes, h.2⟩
  | unary => exact ⟨hnotes, h.2⟩
  | binary => exact ⟨hnotes, h.2⟩

end Plan

end LogicalPlan
