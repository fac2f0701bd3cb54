import LogicalPlan.Expr.Text
import LogicalPlan.Proofs.Json.Lossless
import LogicalPlan.Schema

/-!
# Exports of schemas and expressions lose nothing

An expression is plain if its values are plain, constants hold literals and other functions hold
expressions. The exported function tells how the arguments of an expression are to be read.
-/

namespace LogicalPlan

/-! ### Plain parts -/

/-- All values in the point are plain. -/
def SourcePoint.isPlain (p : SourcePoint) : Bool :=
  p.offset.isPlain && p.line.isPlain && p.column.isPlain

/-- All values in the span are plain. -/
def SourceSpan.isPlain (s : SourceSpan) : Bool :=
  s.text.isPlain && s.start.isPlain && s.stop.isPlain

/-- All values in the origin are plain. -/
def Origin.isPlain (o : Origin) : Bool :=
  o.span.all SourceSpan.isPlain

/-- Name and alias are plain. -/
def Column.isPlain (c : Column) : Bool :=
  c.name.isPlain && c.relAlias.isPlain

/-- Name, alias and type are plain. -/
def SchemaColumn.isPlain (col : SchemaColumn) : Bool :=
  col.name.isPlain && col.relAlias.isPlain && col.type.isPlain

/-- All columns are plain. -/
def Schema.isPlain (s : Schema) : Bool :=
  s.columns.all SchemaColumn.isPlain

namespace Expr

/-- All arguments are plain literals. -/
def arePlainLiterals : List Argument → Bool
  | [] => true
  | .literal v :: args => v.isPlain && arePlainLiterals args
  | .nested _ :: _ => false

mutual

/-- All values in the expression are plain; constants hold literals only, and all other functions
hold expressions only. -/
def isPlain : Expr → Bool
  | .column origin c => origin.isPlain && c.isPlain
  | .apply origin datatype func args =>
    origin.isPlain && datatype.isPlain && func.isPlain
      && (if func = constantName then arePlainLiterals args else arePlainNested args)

/-- All arguments are plain expressions. -/
def arePlainNested : List Argument → Bool
  | [] => true
  | .literal _ :: _ => false
  | .nested e :: args => isPlain e && arePlainNested args

end

end Expr

/-! ### Positions, columns and schemas -/

section Parts

open AreLossless (nil cons)

open IsLossless (value)

theorem SourcePoint.isLossless : IsLossless isPlain toValue := by
  refine (cons "offset" value (cons "line" value (cons "column" value nil))).isLossless
    (fun p => (p.offset, p.line, p.column, ())) (fun _ => Value.document_record _ _ _ _ _) ?_ ?_
  · intro p hp
    simpa [isPlain, and_assoc] using hp
  · rintro ⟨_, _, _⟩ ⟨_, _, _⟩ ⟨⟩
    rfl

theorem SourceSpan.isLossless : IsLossless isPlain toValue := by
  refine (cons "text" value (cons "start" SourcePoint.isLossless
    (cons "end" SourcePoint.isLossless nil))).isLossless
    (fun s => (s.text, s.start, s.stop, ())) (fun _ => Value.document_record _ _ _ _ _) ?_ ?_
  · intro s hs
    simpa [isPlain, and_assoc] using hs
  · rintro ⟨_, _, _⟩ ⟨_, _, _⟩ ⟨⟩
    rfl

theorem SourceSpan.option_isLossless : IsLossless (·.all isPlain) optionToValue :=
  isLossless.option fun _ => by simp [toValue, Value.document]

theorem Column.isLossless : IsLossless isPlain toValue := by
  refine (cons "name" value (cons "relAlias" value nil)).isLossless
    (fun c => (c.name, c.relAlias, ())) (fun _ => Value.document_record _ _ _ _ _) ?_ ?_
  · intro c hc
    simpa [isPlain] using hc
  · rintro ⟨_, _⟩ ⟨_, _⟩ ⟨⟩
    rfl

theorem Column.option_isLossless : IsLossless (·.all isPlain) optionToValue :=
  isLossless.option fun _ => by simp [toValue, Value.document]

theorem SchemaColumn.isLossless : IsLossless isPlain toValue := by
  refine (cons "name" value (cons "relAlias" value (cons "type" value nil))).isLossless
    (fun c => (c.name, c.relAlias, c.type, ())) (fun _ => Value.document_record _ _ _ _ _) ?_ ?_
  · intro c hc
    simpa [isPlain, and_assoc] using hc
  · rintro ⟨_, _, _⟩ ⟨_, _, _⟩ ⟨⟩
    rfl

theorem Schema.isLossless : IsLossless isPlain toValue := by
  refine (cons "columns" SchemaColumn.isLossless.list nil).isLossless
    (fun s => (s.columns, ())) (fun _ => Value.document_record _ _ _ _ _) ?_ ?_
  · intro s hs
    simpa [isPlain] using hs
  · rintro ⟨_⟩ ⟨_⟩ ⟨⟩
    rfl

end Parts

/-! ### Expressions -/

namespace Expr

/-- The arguments of a constant are literals. -/
theorem literals_of_arePlainLiterals :
    ∀ {args : List Argument}, arePlainLiterals args = true →
      ∃ values : List Value, args = values.map .literal ∧ values.all Value.isPlain = true
  | [], _ => ⟨[], rfl, rfl⟩
  | .literal v :: args, h => by
      rw [arePlainLiterals, Bool.and_eq_true] at h
      obtain ⟨values, rfl, hvalues⟩ := literals_of_arePlainLiterals h.2
      exact ⟨v :: values, rfl, by rw [List.all_cons, h.1, hvalues]; rfl⟩
  | .nested _ :: _, h => by cases h

theorem argumentValues_literals (values : List Value) :
    argumentValues (values.map .literal) = values := by
  induction values with
  | nil => rfl
  | cons v values ih => rw [List.map_cons, argumentValues, ih, argumentValue]

theorem eq_of_origin {origin origin' : Origin} (h : origin.isPlain = true)
    (h' : origin'.isPlain = true)
    (hspan : (SourceSpan.optionToValue origin.span).document =
      (SourceSpan.optionToValue origin'.span).document)
    (hparentheses : origin.parenthesized = origin'.parenthesized) : origin = origin' := by
  cases origin
  cases origin'
  rw [Origin.mk.injEq]
  exact ⟨SourceSpan.option_isLossless.injective _ _ h h' hspan, hparentheses⟩

mutual

theorem isPlain_document : ∀ {e : Expr}, e.isPlain = true → e.toValue.document.isPlain = true
  | .column origin c, h => by
      rw [isPlain, Bool.and_eq_true] at h
      have hspan := SourceSpan.option_isLossless.plain origin.span h.1
      have hcolumn := Column.isLossless.plain c h.2
      rw [toValue, Value.document_ofFields, Value.isPlain_ofFields]
      simp [fields, Fields.documents, hspan, hcolumn, Value.document, Value.isPlain]
  | .apply origin datatype func args, h => by
      simp only [isPlain, Bool.and_eq_true] at h
      obtain ⟨⟨⟨horigin, hdatatype⟩, hfunc⟩, hargs⟩ := h
      have hspan := SourceSpan.option_isLossless.plain origin.span horigin
      have hvalues : (argumentValues args).all (·.document.isPlain) = true := by
        split at hargs
        · obtain ⟨values, rfl, hvalues⟩ := literals_of_arePlainLiterals hargs
          rw [argumentValues_literals]
          rw [List.all_eq_true] at hvalues ⊢
          intro v hv
          rw [Value.document_of_isPlain (hvalues v hv)]
          exact hvalues v hv
        · exact arePlain_documents hargs
      have hlist : (Value.list (argumentValues args)).document.isPlain = true := by
        rw [Value.document_list, Value.isPlain_list, List.all_map]
        exact hvalues
      rw [toValue, Value.document_ofFields, Value.isPlain_ofFields]
      simp only [fields, Fields.documents, List.map_cons, List.map_nil, List.all_cons,
        List.all_nil, hspan, hlist, Value.document_of_isPlain hdatatype,
        Value.document_of_isPlain hfunc, hdatatype, hfunc]
      rfl

theorem arePlain_documents : ∀ {args : List Argument}, arePlainNested args = true →
    (argumentValues args).all (·.document.isPlain) = true
  | [], _ => rfl
  | .literal _ :: _, h => by cases h
  | .nested e :: args, h => by
      rw [arePlainNested, Bool.and_eq_true] at h
      rw [argumentValues, List.all_cons, arePlain_documents h.2, Bool.and_true]
      exact isPlain_document h.1

end

mutual

theorem eq_of_document : ∀ {e f : Expr}, e.isPlain = true → f.isPlain = true →
    e.toValue.document = f.toValue.document → e = f
  | .column origin c, .column origin' c', he, hf, heq => by
      rw [isPlain, Bool.and_eq_true] at he hf
      have hfields := Value.documents_eq (Value.document_ofFields _) (Value.document_ofFields _) heq
      simp only [fields, Fields.documents, List.map_cons, List.map_nil, List.cons.injEq,
        Prod.mk.injEq, true_and, and_true, Value.document, Value.bool.injEq] at hfields
      obtain ⟨hcolumn, hspan, hparentheses⟩ := hfields
      rw [Column.isLossless.injective c c' he.2 hf.2 hcolumn,
        eq_of_origin he.1 hf.1 hspan hparentheses]
  | .apply origin datatype func args, .apply origin' datatype' func' args', he, hf, heq => by
      simp only [isPlain, Bool.and_eq_true] at he hf
      obtain ⟨⟨⟨horigin, hdatatype⟩, hfunc⟩, hargs⟩ := he
      obtain ⟨⟨⟨horigin', hdatatype'⟩, hfunc'⟩, hargs'⟩ := hf
      have hfields := Value.documents_eq (Value.document_ofFields _) (Value.document_ofFields _) heq
      simp only [fields, Fields.documents, List.map_cons, List.map_nil, List.cons.injEq,
        Prod.mk.injEq, true_and, and_true, Value.document_of_isPlain hdatatype,
        Value.document_of_isPlain hdatatype', Value.document_of_isPlain hfunc,
        Value.document_of_isPlain hfunc', Value.document_list, Value.list.injEq] at hfields
      obtain ⟨rfl, rfl, hvalues, hspan, hparentheses⟩ := hfields
      have hsame : args = args' := by
        by_cases hconstant : func = constantName
        · rw [if_pos hconstant] at hargs hargs'
          obtain ⟨values, rfl, hplain⟩ := literals_of_arePlainLiterals hargs
          obtain ⟨values', rfl, hplain'⟩ := literals_of_arePlainLiterals hargs'
          rw [argumentValues_literals, argumentValues_literals] at hvalues
          rw [IsLossless.value.map_injective hplain hplain' hvalues]
        · rw [if_neg hconstant] at hargs hargs'
          exact eq_of_documents hargs hargs' hvalues
      rw [hsame, eq_of_origin horigin horigin' hspan (Value.bool.inj hparentheses)]
  | .column _ _, .apply _ _ _ _, _, _, heq => by
      have hfields := Value.documents_eq (Value.document_ofFields _) (Value.document_ofFields _) heq
      simp [fields, Fields.documents] at hfields
  | .apply _ _ _ _, .column _ _, _, _, heq => by
      have hfields := Value.documents_eq (Value.document_ofFields _) (Value.document_ofFields _) heq
      simp [fields, Fields.documents] at hfields

theorem eq_of_documents : ∀ {args args' : List Argument}, arePlainNested args = true →
    arePlainNested args' = true →
    (argumentValues args).map Value.document = (argumentValues args').map Value.document →
    args = args'
  | [], [], _, _, _ => rfl
  | [], _ :: _, _, _, heq => by cases heq
  | _ :: _, [], _, _, heq => by cases heq
  | .literal _ :: _, _, h, _, _ => by cases h
  | _, .literal _ :: _, _, h, _ => by cases h
  | .nested e :: args, .nested f :: args', h, h', heq => by
      rw [arePlainNested, Bool.and_eq_true] at h h'
      rw [argumentValues, argumentValues, List.map_cons, List.map_cons, List.cons.injEq] at heq
      rw [eq_of_document h.1 h'.1 heq.1, eq_of_documents h.2 h'.2 heq.2]

end

theorem isLossless : IsLossless isPlain toValue where
  plain _ := isPlain_document
  injective _ _ := eq_of_document

end Expr

end LogicalPlan
