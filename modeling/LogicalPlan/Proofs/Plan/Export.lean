import LogicalPlan.Plan.Equality
import LogicalPlan.Plan.Export
import LogicalPlan.Proofs.Expr.Export
import LogicalPlan.Proofs.Json.Writer

/-!
# Exports of plans lose nothing

The exported document of a plain plan is plain and tells the plan: operators are told apart by their
names, and everything else by the fixed order of the fields. So does the JSON text of the plan,
since texts tell plain values apart.
-/

namespace LogicalPlan

/-! ### Plain plans -/

/-- All values in the warning are plain, and its parameters have names. -/
def Warning.isPlain (w : Warning) : Bool :=
  w.span.all SourceSpan.isPlain && (Value.object w.params).isPlain

/-- All values in the notes are plain, and the keys of the metadata are texts. -/
def Notes.isPlain (notes : Notes) : Bool :=
  notes.span.all SourceSpan.isPlain && (Value.object notes.metadata).isPlain
    && notes.warnings.all Warning.isPlain

/-- The condition qualifies a join, and all values in it are plain. -/
def JoinCondition.isPlain : JoinCondition → Bool
  | .natural columns => columns.all (·.all Value.isPlain)
  | .theta condition => condition.isPlain
  | .unknown _ => false

/-- All values in the projection entry are plain. -/
def ProjectionItem.isPlain : ProjectionItem → Bool
  | .column c => c.isPlain
  | .computed name relAlias child => name.isPlain && relAlias.isPlain && child.isPlain

/-- All values in the aggregate are plain. -/
def Aggregate.isPlain (agg : Aggregate) : Bool :=
  agg.function.isPlain && agg.column.all Column.isPlain && agg.name.isPlain

/-- All values in the renaming are plain. -/
def Renaming.isPlain (r : Renaming) : Bool :=
  r.newName.isPlain && r.column.isPlain

/-- All values in the sort key are plain. -/
def SortKey.isPlain (key : SortKey) : Bool :=
  key.column.isPlain && key.ascending.isPlain

/-- All values in the relation are plain. -/
def Relation.isPlain (r : Relation) : Bool :=
  r.name.isPlain && r.schema.all Schema.isPlain && r.rows.all (·.all Value.isPlain)

/-- All values in the operator are plain. -/
def UnaryOp.isPlain : UnaryOp → Bool
  | .selection condition => condition.isPlain
  | .projection columns => columns.all ProjectionItem.isPlain
  | .orderBy keys => keys.all SortKey.isPlain
  | .groupBy groups aggregates => groups.all Column.isPlain && aggregates.all Aggregate.isPlain
  | .renameColumns renamings => renamings.all Renaming.isPlain
  | .renameRelation relAlias => relAlias.isPlain

/-- All values in the operator are plain. -/
def BinaryOp.isPlain : BinaryOp → Bool
  | .join _ condition => condition.isPlain
  | _ => true

/-- All values in the plan are plain. -/
def Plan.isPlain : Plan → Bool
  | .relation notes base => notes.isPlain && base.isPlain
  | .unary notes op input => notes.isPlain && op.isPlain && input.isPlain
  | .binary notes op left right => notes.isPlain && op.isPlain && left.isPlain && right.isPlain

/-! ### Notes -/

section Parts

open AreLossless (nil cons)

open IsLossless (value)

theorem Warning.isLossless : IsLossless isPlain fun w => .ofFields w.fields := by
  refine (cons "messageKey" .text (cons "params" .object
    (cons "codeInfo" SourceSpan.option_isLossless nil))).isLossless
    (fun w => (w.key, w.params, w.span, ())) (fun _ => Value.document_ofFields _) ?_ ?_
  · intro w hw
    simpa [isPlain, and_comm] using hw
  · rintro ⟨_, _, _⟩ ⟨_, _, _⟩ ⟨⟩
    rfl

theorem Notes.areLossless : AreLossless isPlain fields := by
  refine (cons "codeInfo" SourceSpan.option_isLossless (cons "metaData" .object
    (cons "warnings" Warning.isLossless.list (cons "wrappedInParentheses" .bool nil)))).of_parts
    (fun notes => (notes.span, notes.metadata, notes.warnings, notes.parenthesized, ()))
    (fun _ => rfl) ?_ ?_
  · intro notes hnotes
    simpa [isPlain, and_assoc] using hnotes
  · rintro ⟨_, _, _, _⟩ ⟨_, _, _, _⟩ ⟨⟩
    rfl

/-! ### Operators -/

theorem Aggregate.isLossless : IsLossless isPlain toValue := by
  refine (cons "aggregate" value (cons "column" Column.option_isLossless
    (cons "name" value nil))).isLossless
    (fun agg => (agg.function, agg.column, agg.name, ())) (fun _ => Value.document_ofFields _) ?_ ?_
  · intro agg hagg
    simpa [isPlain, and_assoc] using hagg
  · rintro ⟨_, _, _⟩ ⟨_, _, _⟩ ⟨⟩
    rfl

theorem Renaming.isLossless : IsLossless isPlain toValue := by
  refine (cons "newName" value (cons "column" Column.isLossless nil)).isLossless
    (fun r => (r.newName, r.column, ())) (fun _ => Value.document_ofFields _) ?_ ?_
  · intro r hr
    simpa [isPlain] using hr
  · rintro ⟨_, _⟩ ⟨_, _⟩ ⟨⟩
    rfl

theorem Relation.areLossless : AreLossless isPlain fields := by
  refine (cons "name" value (cons "schema" (Schema.isLossless.option ?_)
    (cons "rows" (IsLossless.tuple.list) nil))).of_parts
    (fun r => (r.name, r.schema, r.rows, ())) (fun _ => rfl) ?_ ?_
  · intro s
    simp [Schema.toValue, Value.document]
  · intro r hr
    simpa [isPlain, and_assoc] using hr
  · rintro ⟨_, _, _⟩ ⟨_, _, _⟩ ⟨⟩
    rfl

theorem JoinCondition.natural_isLossless :
    IsLossless (fun columns : Option (List Value) => columns.all (·.all Value.isPlain))
      fun columns => JoinCondition.toValue (.natural columns) := by
  refine (cons "type" .text (cons "restrictToColumns" (IsLossless.tuple.option ?_) nil)).isLossless
    (fun columns => ("natural", columns, ())) (fun _ => Value.document_ofFields _) ?_ ?_
  · intro columns
    simp [Value.document]
  · intro columns h
    simpa using h
  · rintro _ _ ⟨⟩
    rfl

theorem JoinCondition.theta_isLossless :
    IsLossless Expr.isPlain fun condition => JoinCondition.toValue (.theta condition) := by
  refine (cons "type" .text (cons "joinExpression" Expr.isLossless nil)).isLossless
    (fun condition => ("theta", condition, ())) (fun _ => Value.document_ofFields _) ?_ ?_
  · intro condition h
    simpa using h
  · rintro _ _ ⟨⟩
    rfl

/-- The two kinds of conditions are told apart by their types. -/
theorem JoinCondition.isLossless : IsLossless isPlain toValue where
  plain condition h := by
    cases condition with
    | natural columns => exact natural_isLossless.plain columns h
    | theta condition => exact theta_isLossless.plain condition h
    | unknown => cases h
  injective condition other h h' heq := by
    cases condition with
    | natural columns =>
        cases other with
        | natural columns' => rw [natural_isLossless.injective columns columns' h h' heq]
        | theta condition' =>
            have hfields := Value.documents_eq (Value.document_ofFields _)
              (Value.document_ofFields _) heq
            simp [Fields.documents, Value.document] at hfields
        | unknown => cases h'
    | theta condition =>
        cases other with
        | natural columns' =>
            have hfields := Value.documents_eq (Value.document_ofFields _)
              (Value.document_ofFields _) heq
            simp [Fields.documents, Value.document] at hfields
        | theta condition' => rw [theta_isLossless.injective condition condition' h h' heq]
        | unknown => cases h'
    | unknown => cases h

theorem ProjectionItem.computed_isLossless :
    IsLossless (fun item : Value × Value × Expr =>
        item.1.isPlain && item.2.1.isPlain && item.2.2.isPlain)
      fun item => ProjectionItem.toValue (.computed item.1 item.2.1 item.2.2) := by
  refine (cons "name" value (cons "relAlias" value (cons "child" Expr.isLossless nil))).isLossless
    (fun item => (item.1, item.2.1, item.2.2, ())) (fun _ => Value.document_ofFields _) ?_ ?_
  · intro item h
    simpa [and_assoc] using h
  · rintro ⟨_, _, _⟩ ⟨_, _, _⟩ ⟨⟩
    rfl

/-- Only computed entries have a child. -/
theorem ProjectionItem.isLossless : IsLossless isPlain toValue where
  plain item h := by
    cases item with
    | column c => exact Column.isLossless.plain c h
    | computed name relAlias child => exact computed_isLossless.plain (name, relAlias, child) h
  injective item other h h' heq := by
    cases item with
    | column c =>
        cases other with
        | column c' => rw [Column.isLossless.injective c c' h h' heq]
        | computed =>
            have hfields := Value.documents_eq (Value.document_record _ _ _ _ _)
              (Value.document_ofFields _) heq
            simp [Fields.documents] at hfields
    | computed name relAlias child =>
        cases other with
        | column =>
            have hfields := Value.documents_eq (Value.document_ofFields _)
              (Value.document_record _ _ _ _ _) heq
            simp [Fields.documents] at hfields
        | computed name' relAlias' child' =>
            cases computed_isLossless.injective (name, relAlias, child)
              (name', relAlias', child') h h' heq
            rfl

theorem SortKey.areLossless : AreLossless (·.all isPlain) fun keys : List SortKey =>
    [("columns", .list (keys.map (·.column.toValue))),
      ("ascending", .list (keys.map (·.ascending)))] := by
  refine (cons "columns" Column.isLossless.list (cons "ascending" value.list nil)).of_parts
    (fun keys => (keys.map (·.column), keys.map (·.ascending), ())) ?_ ?_ ?_
  · intro keys
    rw [List.map_map, List.map_id]
    rfl
  · intro keys hkeys
    simp only [isPlain, List.all_eq_true, Bool.and_eq_true] at hkeys
    simp only [List.all_map, Bool.and_true, Bool.and_eq_true, List.all_eq_true]
    exact ⟨fun key hkey => (hkeys key hkey).1, fun key hkey => (hkeys key hkey).2⟩
  · intro keys others heq
    have := congrArg (fun parts => List.zipWith SortKey.mk parts.1 parts.2.1) heq
    simpa [List.zipWith_map_left, List.zipWith_map_right, List.zipWith_self] using this

theorem UnaryOp.groupBy_areLossless :
    AreLossless (fun op : List Column × List Aggregate =>
        op.1.all Column.isPlain && op.2.all Aggregate.isPlain)
      fun op => UnaryOp.fields (.groupBy op.1 op.2) := by
  refine (cons "groupColumns" Column.isLossless.list
    (cons "aggregates" Aggregate.isLossless.list nil)).of_parts
    (fun op => (op.1, op.2, ())) (fun _ => rfl) ?_ ?_
  · intro op h
    simpa using h
  · rintro ⟨_, _⟩ ⟨_, _⟩ ⟨⟩
    rfl

end Parts

namespace UnaryOp

open AreLossless (single)

theorem isPlain_fields {op : UnaryOp} (h : op.isPlain = true) :
    op.fields.documents.all (·.2.isPlain) = true := by
  cases op with
  | selection condition => exact (single "condition" Expr.isLossless).plain condition h
  | projection columns => exact (single "columns" ProjectionItem.isLossless.list).plain columns h
  | orderBy keys => exact SortKey.areLossless.plain keys h
  | groupBy groups aggregates => exact groupBy_areLossless.plain (groups, aggregates) h
  | renameColumns renamings =>
      exact (single "renamings" Renaming.isLossless.list).plain renamings h
  | renameRelation relAlias => exact (single "newRelAlias" IsLossless.value).plain relAlias h

/-- Name and fields tell the operator. -/
theorem eq_of_fields {op other : UnaryOp} (h : op.isPlain = true) (h' : other.isPlain = true)
    (hname : op.name = other.name) (heq : op.fields.documents = other.fields.documents) :
    op = other := by
  cases op with
  | selection condition =>
      cases other with
      | selection condition' =>
          rw [(single "condition" Expr.isLossless).injective condition condition' h h' heq]
      | _ => simp [name] at hname
  | projection columns =>
      cases other with
      | projection columns' =>
          rw [(single "columns" ProjectionItem.isLossless.list).injective columns columns' h h' heq]
      | _ => simp [name] at hname
  | orderBy keys =>
      cases other with
      | orderBy keys' => rw [SortKey.areLossless.injective keys keys' h h' heq]
      | _ => simp [name] at hname
  | groupBy groups aggregates =>
      cases other with
      | groupBy groups' aggregates' =>
          cases groupBy_areLossless.injective (groups, aggregates) (groups', aggregates') h h' heq
          rfl
      | _ => simp [name] at hname
  | renameColumns renamings =>
      cases other with
      | renameColumns renamings' =>
          rw [(single "renamings" Renaming.isLossless.list).injective renamings renamings' h h' heq]
      | _ => simp [name] at hname
  | renameRelation relAlias =>
      cases other with
      | renameRelation relAlias' =>
          rw [(single "newRelAlias" IsLossless.value).injective relAlias relAlias' h h' heq]
      | _ => simp [name] at hname

theorem name_ne_relation (op : UnaryOp) : op.name ≠ "Relation" := by
  cases op <;> simp [name]

end UnaryOp

namespace BinaryOp

open AreLossless (single)

theorem isPlain_fields {op : BinaryOp} (h : op.isPlain = true) :
    op.fields.documents.all (·.2.isPlain) = true := by
  cases op with
  | join kind condition => exact (single "condition" JoinCondition.isLossless).plain condition h
  | semi keepsLeft => exact (single "left" IsLossless.bool).plain keepsLeft rfl
  | cross | anti | union | intersect | difference | division => rfl

/-- Name and fields tell the operator. -/
theorem eq_of_fields {op other : BinaryOp} (h : op.isPlain = true) (h' : other.isPlain = true)
    (hname : op.name = other.name) (heq : op.fields.documents = other.fields.documents) :
    op = other := by
  cases op with
  | join kind condition =>
      cases other with
      | join kind' condition' =>
          have hkind : kind = kind' := by
            cases kind <;> cases kind' <;> first | rfl | simp [name] at hname
          rw [hkind, (single "condition" JoinCondition.isLossless).injective condition condition'
            h h' heq]
      | _ => cases kind <;> simp [name] at hname
  | semi keepsLeft =>
      cases other with
      | semi keepsLeft' =>
          rw [(single "left" IsLossless.bool).injective keepsLeft keepsLeft' rfl rfl heq]
      | join kind _ => cases kind <;> simp [name] at hname
      | _ => simp [name] at hname
  | cross | anti | union | intersect | difference | division =>
      cases other with
      | join kind _ => cases kind <;> simp [name] at hname
      | _ => first | rfl | simp [name] at hname

theorem name_ne_unary (op : BinaryOp) (other : UnaryOp) : op.name ≠ other.name := by
  cases other with
  | _ =>
    cases op with
    | join kind _ => cases kind <;> simp [name, UnaryOp.name]
    | _ => simp [name, UnaryOp.name]

theorem name_ne_relation (op : BinaryOp) : op.name ≠ "Relation" := by
  cases op with
  | join kind _ => cases kind <;> simp [name]
  | _ => simp [name]

end BinaryOp

/-! ### Plans -/

namespace Plan

theorem documents_append (fields other : Fields) :
    (fields ++ other).documents = fields.documents ++ other.documents :=
  List.map_append

theorem documents_cons (name : String) (v : Value) (fields : Fields) :
    Fields.documents ((name, v) :: fields) = (name, v.document) :: fields.documents :=
  rfl

/-- What is exported of a plan behind its operator and its notes. -/
def attributes : Plan → Fields
  | .relation _ base => base.fields
  | .unary _ op input => ("child", input.toValue) :: op.fields
  | .binary _ op left right => ("child", left.toValue) :: ("child2", right.toValue) :: op.fields

theorem fields_eq (p : Plan) :
    p.fields = ("type", .string p.typeName) :: (p.notes.fields ++ p.attributes) := by
  cases p <;> rfl

/-- Plans with the same document have the same operator name and the same notes, and their
attributes have the same documents. -/
theorem parts_of_document {p q : Plan} (hp : p.notes.isPlain = true) (hq : q.notes.isPlain = true)
    (h : p.toValue.document = q.toValue.document) :
    p.typeName = q.typeName ∧ p.notes = q.notes ∧
      p.attributes.documents = q.attributes.documents := by
  have hfields := Value.documents_eq (Value.document_ofFields _) (Value.document_ofFields _) h
  rw [fields_eq, fields_eq, documents_cons, documents_cons, List.cons.injEq, Prod.mk.injEq,
    documents_append, documents_append] at hfields
  obtain ⟨⟨-, hname⟩, hrest⟩ := hfields
  obtain ⟨hnotes, hattributes⟩ := List.append_inj hrest rfl
  exact ⟨Value.string.inj hname, Notes.areLossless.injective _ _ hp hq hnotes, hattributes⟩

theorem isPlain_notes {p : Plan} (h : p.isPlain = true) : p.notes.isPlain = true := by
  cases p <;> simp only [isPlain, Bool.and_eq_true] at h
  · exact h.1
  · exact h.1.1
  · exact h.1.1.1

theorem isPlain_of_attributes {p : Plan} (hnotes : p.notes.isPlain = true)
    (hattributes : p.attributes.documents.all (·.2.isPlain) = true) :
    p.toValue.document.isPlain = true := by
  rw [toValue, Value.document_ofFields, Value.isPlain_ofFields, fields_eq, documents_cons,
    documents_append, List.all_cons, List.all_append, hattributes,
    Notes.areLossless.plain _ hnotes]
  rfl

/-- The document of a plain plan is plain. -/
theorem isPlain_document {p : Plan} (h : p.isPlain = true) :
    p.toValue.document.isPlain = true := by
  refine isPlain_of_attributes (isPlain_notes h) ?_
  induction p with
  | relation notes base =>
      rw [isPlain, Bool.and_eq_true] at h
      exact Relation.areLossless.plain base h.2
  | unary notes op input ih =>
      simp only [isPlain, Bool.and_eq_true] at h
      obtain ⟨⟨-, hop⟩, hinput⟩ := h
      have child := isPlain_of_attributes (isPlain_notes hinput) (ih hinput)
      rw [attributes, documents_cons, List.all_cons, child, UnaryOp.isPlain_fields hop]
      rfl
  | binary notes op left right ihl ihr =>
      simp only [isPlain, Bool.and_eq_true] at h
      obtain ⟨⟨⟨-, hop⟩, hleft⟩, hright⟩ := h
      have first := isPlain_of_attributes (isPlain_notes hleft) (ihl hleft)
      have second := isPlain_of_attributes (isPlain_notes hright) (ihr hright)
      rw [attributes, documents_cons, documents_cons, List.all_cons, List.all_cons, first, second,
        BinaryOp.isPlain_fields hop]
      rfl

/-- Plain plans with the same document are the same. -/
theorem eq_of_document {p q : Plan} (hp : p.isPlain = true) (hq : q.isPlain = true)
    (h : p.toValue.document = q.toValue.document) : p = q := by
  obtain ⟨hname, hnotes, hattributes⟩ := parts_of_document (isPlain_notes hp) (isPlain_notes hq) h
  induction p generalizing q with
  | relation notes base =>
      cases q with
      | relation notes' base' =>
          rw [isPlain, Bool.and_eq_true] at hp hq
          cases hnotes
          rw [Relation.areLossless.injective base base' hp.2 hq.2 hattributes]
      | unary notes' op' input' => exact absurd hname.symm op'.name_ne_relation
      | binary notes' op' left' right' => exact absurd hname.symm op'.name_ne_relation
  | unary notes op input ih =>
      cases q with
      | relation notes' base' => exact absurd hname op.name_ne_relation
      | unary notes' op' input' =>
          simp only [isPlain, Bool.and_eq_true] at hp hq
          obtain ⟨⟨-, hop⟩, hinput⟩ := hp
          obtain ⟨⟨-, hop'⟩, hinput'⟩ := hq
          cases hnotes
          rw [attributes, attributes, documents_cons, documents_cons, List.cons.injEq,
            Prod.mk.injEq] at hattributes
          obtain ⟨⟨-, hchild⟩, hfields⟩ := hattributes
          rw [UnaryOp.eq_of_fields hop hop' hname hfields]
          have parts := parts_of_document (isPlain_notes hinput) (isPlain_notes hinput') hchild
          rw [ih hinput hinput' hchild parts.1 parts.2.1 parts.2.2]
      | binary notes' op' left' right' => exact absurd hname.symm (op'.name_ne_unary op)
  | binary notes op left right ihl ihr =>
      cases q with
      | relation notes' base' => exact absurd hname op.name_ne_relation
      | unary notes' op' input' => exact absurd hname (op.name_ne_unary op')
      | binary notes' op' left' right' =>
          simp only [isPlain, Bool.and_eq_true] at hp hq
          obtain ⟨⟨⟨-, hop⟩, hleft⟩, hright⟩ := hp
          obtain ⟨⟨⟨-, hop'⟩, hleft'⟩, hright'⟩ := hq
          cases hnotes
          simp only [attributes, documents_cons, List.cons.injEq, Prod.mk.injEq,
            true_and] at hattributes
          obtain ⟨hfirst, hsecond, hfields⟩ := hattributes
          rw [BinaryOp.eq_of_fields hop hop' hname hfields]
          have parts := parts_of_document (isPlain_notes hleft) (isPlain_notes hleft') hfirst
          have parts' := parts_of_document (isPlain_notes hright) (isPlain_notes hright') hsecond
          rw [ihl hleft hleft' hfirst parts.1 parts.2.1 parts.2.2,
            ihr hright hright' hsecond parts'.1 parts'.2.1 parts'.2.2]

/-- A plain plan has a JSON text in every legible format, and the text tells the plan with its
positions, parentheses, metadata and warnings. -/
theorem write?_lossless {format : Json.Format} (hformat : format.IsLegible) {p q : Plan}
    (hp : p.isPlain = true) (hq : q.isPlain = true) :
    (∃ text, Json.write? format 0 p.toValue = some text) ∧
      (Json.write? format 0 p.toValue = Json.write? format 0 q.toValue →
        p = q ∧ p.same q = true) := by
  have plain := isPlain_document hp
  have plain' := isPlain_document hq
  rw [← Json.write?_document format 0 p.toValue, ← Json.write?_document format 0 q.toValue]
  constructor
  · exact Json.exists_write? hformat.keepsOrder _ 0 plain
  · intro h
    have heq := eq_of_document hp hq (Json.eq_of_write? hformat plain plain' h)
    exact ⟨heq, by rw [heq, same, decide_eq_true_eq]⟩

namespace Sample

/-- A selection with a constant, a column and metadata, over a relation without schema. -/
def exported : Plan :=
  .unary { metadata := [(.string "rows", .list [.int 1, .float ⟨4607182418800017408⟩, .null])] }
    (.selection (.apply {} (.string "boolean") (.string "=")
      [.nested (.column {} ⟨.string "a", .null⟩),
        .nested (.apply {} (.string "string") Expr.constantName [.literal (.string "é\n")])]))
    (.relation {} { name := .string "R", rows := [[.bool true, .int 1]] })

end Sample

/-- A warning shows in the text of a plan. -/
theorem Sample.write?_lossless_warned :
    (∃ text, Json.compact? exported.toValue = some text) ∧
      Json.compact? exported.toValue ≠
        Json.compact? (exported.warn Message.distinctMissing none).toValue := by
  have format : Json.Format.IsLegible {} := ⟨rfl, rfl, by rintro _ ⟨⟩⟩
  have lossless := write?_lossless format (p := exported)
    (q := exported.warn Message.distinctMissing none) (by decide) (by decide)
  refine ⟨lossless.1, fun h => ?_⟩
  have := (lossless.2 h).1
  revert this
  decide

end Plan

end LogicalPlan