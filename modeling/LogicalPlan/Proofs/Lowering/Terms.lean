import LogicalPlan.Proofs.Lowering.References
import LogicalPlan.Proofs.Repetitions

/-!
# Lowered value expressions

Lowering mirrors a value expression. It fails exactly if a part of it has a datatype that is not
supported, and reports the first such part in preorder. Otherwise the parts of the lowered
expression are those of the parsed one in the same order, and no two parsed expressions are lowered
to the same, except for the ways to spell a column reference.

## Implementation notes

`Term.IsFormed` has one constructor for each kind of expression, so every property is proved by
induction on it, with the nested expressions as a list. `Term.tidy` keeps of a column reference what
it denotes; parsed expressions are compared after it.
-/

namespace LogicalPlan

open Outcome

theorem Expr.walkArguments_nested (es : List Expr) :
    Expr.walkArguments (es.map Argument.nested) = es.flatMap Expr.walk := by
  induction es with
  | nil => rfl
  | cons e es ih =>
      rw [List.map_cons, Expr.walkArguments, Expr.walkArgument, ih, List.flatMap_cons]

namespace Query

namespace Term

/-! ### Formed expressions -/

/-- Expressions with this type and function are no column references. -/
abbrev Computes (datatype func : Value) : Prop :=
  ¬ (datatype = .string "null" ∧ func = columnName)

/-- Constants hold literals, column references name a column by a text or an integer, possibly with
an alias, and all other arguments are nested expressions. -/
inductive IsFormed : Term → Prop where
  | column {origin : Origin} {args : List TermArgument}
      (names : nameColumn isReference args = true) :
      IsFormed (.mk origin (.string "null") columnName args)
  | constant {origin : Origin} {datatype : Value} (literals : List Value)
      (typed : datatype.isText = true) :
      IsFormed (.mk origin datatype Expr.constantName (literals.map TermArgument.literal))
  | apply {origin : Origin} {datatype func : Value} (parts : List Term)
      (typed : datatype.isText = true) (computes : Computes datatype func)
      (nests : func ≠ Expr.constantName) (formed : ∀ part ∈ parts, IsFormed part) :
      IsFormed (.mk origin datatype func (parts.map TermArgument.nested))

theorem columnOf_eq_ok {args : List TermArgument} (h : nameColumn isReference args = true) :
    columnOf (args.map literalOf) = .ok (referenceOf args) := by
  obtain ⟨c, hc⟩ := (columnOf_gives h).exists_ok
  rw [hc, eq_referenceOf hc]

/-! ### Nested expressions as a list -/

theorem walkArguments_nested (parts : List Term) :
    walkArguments (parts.map TermArgument.nested) = parts.flatMap walk := by
  induction parts with
  | nil => rfl
  | cons part parts ih => rw [List.map_cons, walkArguments, ih, List.flatMap_cons]

theorem lowerArguments_nested (parts : List Term) :
    lowerArguments (parts.map TermArgument.nested) =
      (parts.mapM lower).map (·.map Argument.nested) := by
  induction parts with
  | nil => rfl
  | cons part parts ih =>
      rw [List.map_cons, lowerArguments, lowerArgument, ih, List.mapM_cons]
      cases part.lower with
      | error fault => rfl
      | ok e => cases parts.mapM lower <;> rfl

/-! ### Failures -/

/-- The expression is no column reference and has a datatype that is not supported. -/
def isUnsupported (t : Term) : Bool :=
  !t.isColumn && !supportedTypes.contains t.datatype

/-- The report of an expression whose datatype is not supported. -/
def report (t : Term) : Fault :=
  .unsupported ("value expressions of datatype '" ++ t.datatype.text ++ "'")

variable {origin : Origin} {datatype func : Value} {t u : Term} {e f : Expr}

theorem constant_computes : Computes datatype Expr.constantName := by
  simp [Computes, Expr.constantName, columnName]

theorem lower_column {args : List TermArgument} (names : nameColumn isReference args = true) :
    (mk origin (.string "null") columnName args).lower =
      .ok (.column origin (referenceOf args)) := by
  rw [lower, if_pos ⟨rfl, rfl⟩, columnOf_eq_ok names, ok_bind]

/-- An expression that is no column reference is lowered if its type is supported. -/
theorem lower_of_isText {args : List TermArgument} (typed : datatype.isText = true)
    (computes : Computes datatype func) :
    (mk origin datatype func args).lower =
      if supportedTypes.contains datatype then
        if func = Expr.constantName then
          .ok (.apply origin datatype func (args.map fun a => .literal (literalOf a)))
        else (lowerArguments args).map (.apply origin datatype func)
      else .error (mk origin datatype func args).report := by
  rw [lower, if_neg computes, Value.isHashable_of_isText typed, if_neg (by simp)]
  cases supportedTypes.contains datatype with
  | false => rfl
  | true => simp [map_eq_bind]

theorem lower_constant (literals : List Value) (typed : datatype.isText = true) :
    (mk origin datatype Expr.constantName (literals.map TermArgument.literal)).lower =
      if supportedTypes.contains datatype then
        .ok (.apply origin datatype Expr.constantName (literals.map Argument.literal))
      else .error
        (mk origin datatype Expr.constantName (literals.map TermArgument.literal)).report := by
  rw [lower_of_isText typed constant_computes, if_pos rfl, List.map_map]
  rfl

theorem lower_apply (parts : List Term) (typed : datatype.isText = true)
    (computes : Computes datatype func) (nests : func ≠ Expr.constantName) :
    (mk origin datatype func (parts.map TermArgument.nested)).lower =
      if supportedTypes.contains datatype then
        (parts.mapM lower).map fun es => .apply origin datatype func (es.map Argument.nested)
      else .error (mk origin datatype func (parts.map TermArgument.nested)).report := by
  rw [lower_of_isText typed computes, if_neg nests, lowerArguments_nested]
  cases parts.mapM lower <;> rfl

theorem eq_of_lower_constant {literals : List Value} (typed : datatype.isText = true)
    (he : (mk origin datatype Expr.constantName
      (literals.map TermArgument.literal)).lower = .ok e) :
    e = .apply origin datatype Expr.constantName (literals.map Argument.literal) := by
  rw [lower_constant literals typed] at he
  split at he
  · exact (Except.ok.inj he).symm
  · cases he

theorem exists_of_lower_apply {parts : List Term} (typed : datatype.isText = true)
    (computes : Computes datatype func) (nests : func ≠ Expr.constantName)
    (he : (mk origin datatype func (parts.map TermArgument.nested)).lower = .ok e) :
    ∃ es, List.Forall₂ (fun part e => part.lower = .ok e) parts es ∧
      e = .apply origin datatype func (es.map Argument.nested) := by
  rw [lower_apply parts typed computes nests] at he
  split at he
  · obtain ⟨es, hes, rfl⟩ := map_eq_ok.mp he
    exact ⟨es, mapM_eq_ok.mp hes, rfl⟩
  · cases he

theorem walk_column {args : List TermArgument} :
    (mk origin (.string "null") columnName args).walk =
      [mk origin (.string "null") columnName args] := by
  rw [walk, if_pos ⟨rfl, rfl⟩]

theorem walk_constant {args : List TermArgument} :
    (mk origin datatype Expr.constantName args).walk =
      [mk origin datatype Expr.constantName args] := by
  rw [walk, if_neg constant_computes, if_pos rfl]

theorem walk_apply (parts : List Term) (computes : Computes datatype func)
    (nests : func ≠ Expr.constantName) :
    (mk origin datatype func (parts.map TermArgument.nested)).walk =
      mk origin datatype func (parts.map TermArgument.nested) :: parts.flatMap walk := by
  rw [walk, if_neg computes, if_neg nests, walkArguments_nested]

theorem isUnsupported_mk {args : List TermArgument} (computes : Computes datatype func) :
    (mk origin datatype func args).isUnsupported = !supportedTypes.contains datatype := by
  rw [isUnsupported, isColumn_mk_eq_false computes]
  rfl

/-- A part that is not supported is reported in front of the parts below it. -/
theorem reports_node {args : List TermArgument} {below : List Term} {x : Outcome Expr}
    (computes : Computes datatype func)
    (hx : Reports ((below.filter isUnsupported).map report) x) :
    Reports (((mk origin datatype func args :: below).filter isUnsupported).map report)
      (if supportedTypes.contains datatype then x
        else .error (mk origin datatype func args).report) := by
  have here : (mk origin datatype func args).isUnsupported = !supportedTypes.contains datatype :=
    isUnsupported_mk computes
  cases hsupported : supportedTypes.contains datatype with
  | false =>
      rw [hsupported] at here
      rw [List.filter_cons_of_pos here, List.map_cons]
      rfl
  | true =>
      rw [hsupported] at here
      rw [List.filter_cons_of_neg (Bool.eq_false_iff.mp here), if_pos rfl]
      exact hx

/-- Lowering reports the first part in preorder whose datatype is not supported. -/
theorem IsFormed.reports (h : t.IsFormed) :
    Reports ((t.walk.filter isUnsupported).map report) t.lower := by
  induction h with
  | column names =>
      rw [walk_column, lower_column names]
      exact ⟨_, rfl⟩
  | constant literals typed =>
      rw [walk_constant, lower_constant literals typed]
      exact reports_node constant_computes ⟨_, rfl⟩
  | apply parts typed computes nests formed ih =>
      rw [walk_apply parts computes nests, lower_apply parts typed computes nests]
      apply reports_node computes
      rw [List.filter_flatMap, List.map_flatMap, map_eq_bind]
      exact (Reports.mapM ih).followed fun es _ => ⟨_, rfl⟩

/-! ### Columns -/

/-- The columns of the lowered expression are those that column references denote, in order. -/
theorem filterMap_column_of_lower (h : t.lower = .ok e) :
    e.walk.filterMap Expr.column? = t.walk.filterMap column? := by
  have parts := counterparts_of_lower h
  generalize t.walk = nodes, e.walk = lowered at parts
  induction parts with
  | nil => rfl
  | cons first _ ih => rw [List.filterMap_cons, List.filterMap_cons, first.column, ih]

/-- The columns of a lowered expression are those that the column references of the parsed one
denote. None is listed twice. -/
theorem columns_of_lower (h : t.lower = .ok e) :
    (∀ c ∈ e.columns, ∃ node ∈ t.walk, node.column? = some c) ∧
      (∀ node ∈ t.walk, ∀ c, node.column? = some c → ∃ d ∈ e.columns, d.same c = true) ∧
      e.columns.Pairwise fun c d => c.same d = false := by
  have congr (a b c : Column) (hab : a.same b = true) : a.same c = b.same c := by
    rw [Column.same, of_decide_eq_true hab]
    rfl
  have columns : e.columns = Expr.distinctColumns (t.walk.filterMap column?) := by
    rw [Expr.columns, filterMap_column_of_lower h]
  rw [columns]
  refine ⟨fun c hc => ?_, fun node hnode c hc => ?_, pairwise_foldl_distinct _ .nil⟩
  · exact List.mem_filterMap.mp (foldl_distinct_subset _ _ hc)
  · have listed : c ∈ t.walk.filterMap column? := List.mem_filterMap.mpr ⟨node, hnode, hc⟩
    apply List.any_eq_true.mp
    refine (any_foldl_distinct congr _ [] c).trans ?_
    exact List.any_eq_true.mpr ⟨c, listed, decide_eq_true rfl⟩

/-! ### Equality -/

mutual

/-- The expression with all column references in one form: a name and an alias, which is null if
there is none. -/
def tidy : Term → Term
  | .mk origin datatype func args =>
    if datatype = .string "null" ∧ func = columnName then
      let c := referenceOf args
      .mk origin datatype func [.literal c.name, .literal c.relAlias]
    else .mk origin datatype func (tidyArguments args)

/-- The arguments with all column references in one form. -/
def tidyArguments : List TermArgument → List TermArgument
  | [] => []
  | .literal v :: as => .literal v :: tidyArguments as
  | .nested t :: as => .nested (tidy t) :: tidyArguments as

end

/-- Two parsed expressions count as the same one. -/
def same (t u : Term) : Bool :=
  t.toValue.same u.toValue

end Term

end Query

/-! ### Values of parsed expressions -/

namespace Value

/-- Only texts are compared as texts. -/
theorem normal_eq_string_iff {v : Value} {s : String} : v.normal = .string s ↔ v = .string s := by
  cases v with
  | float x => cases hx : x.toInt? <;> simp [normal, hx]
  | _ => simp [normal]

end Value

theorem SourcePoint.normal_toValue_eq_iff {p q : SourcePoint} :
    p.toValue.normal = q.toValue.normal ↔ p.normal = q.normal := by
  simp [toValue, normal, Value.normal, Value.normalItems, Value.normalMembers, fields,
    Members.ofFields]

theorem SourceSpan.normal_toValue_eq_iff {s s' : SourceSpan} :
    s.toValue.normal = s'.toValue.normal ↔ s.normal = s'.normal := by
  simp only [toValue, normal, Value.normal, Value.normalItems, Value.normalMembers, fields,
    Members.ofFields, List.map_cons, List.map_nil, Value.record.injEq, List.cons.injEq,
    Prod.mk.injEq, SourcePoint.normal_toValue_eq_iff, SourceSpan.mk.injEq, and_true, true_and,
    and_self]

theorem Origin.normal_eq_iff {o o' : Origin} :
    o.normal = o'.normal ↔ (SourceSpan.optionToValue o.span).normal =
      (SourceSpan.optionToValue o'.span).normal ∧ o.parenthesized = o'.parenthesized := by
  obtain ⟨span, parenthesized⟩ := o
  obtain ⟨span', parenthesized'⟩ := o'
  rw [normal, normal, mk.injEq]
  refine and_congr_left fun _ => ?_
  cases span with
  | none =>
      cases span' with
      | none => simp
      | some s' => simp [SourceSpan.optionToValue, Value.normal, SourceSpan.toValue]
  | some s =>
      cases span' with
      | none => simp [SourceSpan.optionToValue, Value.normal, SourceSpan.toValue]
      | some s' => simp [SourceSpan.optionToValue, SourceSpan.normal_toValue_eq_iff]

namespace Query

namespace Term

variable {t u : Term} {e f : Expr}

theorem normal_toValue_mk_eq_iff {origin origin' : Origin} {datatype datatype' func func' : Value}
    {args args' : List TermArgument} :
    (mk origin datatype func args).toValue.normal =
        (mk origin' datatype' func' args').toValue.normal ↔
      origin.normal = origin'.normal ∧ datatype.normal = datatype'.normal ∧
        func.normal = func'.normal ∧
        (argumentValues args).map Value.normal = (argumentValues args').map Value.normal := by
  have parenthesized : Value.int (if origin.parenthesized then 1 else 0) =
      .int (if origin'.parenthesized then 1 else 0) ↔
      origin.parenthesized = origin'.parenthesized := by
    cases origin.parenthesized <;> cases origin'.parenthesized <;> simp
  simp only [toValue, exported, originFields, Value.normal, Value.normalItems, Value.normalMembers,
    Members.ofFields, List.map_cons, List.map_nil, Value.record.injEq, List.cons.injEq,
    Prod.mk.injEq, List.cons_append, List.nil_append, Origin.normal_eq_iff,
    Value.normalItems_eq_map, Value.tuple.injEq, and_true, true_and, and_self, parenthesized,
    and_assoc]

theorem argumentValues_literal (literals : List Value) :
    argumentValues (literals.map TermArgument.literal) = literals := by
  induction literals with
  | nil => rfl
  | cons v vs ih => rw [List.map_cons, argumentValues, argumentValue, ih]

theorem argumentValues_nested (parts : List Term) :
    argumentValues (parts.map TermArgument.nested) = parts.map toValue := by
  induction parts with
  | nil => rfl
  | cons part parts ih => rw [List.map_cons, argumentValues, argumentValue, ih, List.map_cons]

theorem tidyArguments_literal (literals : List Value) :
    tidyArguments (literals.map TermArgument.literal) = literals.map TermArgument.literal := by
  induction literals with
  | nil => rfl
  | cons v vs ih => rw [List.map_cons, tidyArguments, ih]

theorem tidyArguments_nested (parts : List Term) :
    tidyArguments (parts.map TermArgument.nested) = (parts.map tidy).map TermArgument.nested := by
  induction parts with
  | nil => rfl
  | cons part parts ih => rw [List.map_cons, tidyArguments, ih, List.map_cons, List.map_cons]

/-- Lists of parts are compared part by part. -/
theorem map_eq_map_iff_of_forall₂ {α β γ δ : Type} {R : α → β → Prop} {normal : β → γ}
    {value : α → δ} {as as' : List α} {bs bs' : List β} (h : List.Forall₂ R as bs)
    (h' : List.Forall₂ R as' bs')
    (parts : ∀ a ∈ as, ∀ a' ∈ as', ∀ b b', R a b → R a' b' →
      (normal b = normal b' ↔ value a = value a')) :
    bs.map normal = bs'.map normal ↔ as.map value = as'.map value := by
  induction h generalizing as' bs' with
  | nil => cases h' <;> simp
  | @cons a b as bs hab hs ih =>
      cases h' with
      | nil => simp
      | @cons a' b' as' bs' hab' hs' =>
          have first := parts a List.mem_cons_self a' List.mem_cons_self b b' hab hab'
          have others := ih hs' fun x hx y hy =>
            parts x (List.mem_cons_of_mem _ hx) y (List.mem_cons_of_mem _ hy)
          simp only [List.map_cons, List.cons.injEq, first, others]

theorem normalArguments_literal (literals : List Value) :
    Expr.normalArguments (literals.map Argument.literal) =
      (literals.map Value.normal).map Argument.literal := by
  induction literals with
  | nil => rfl
  | cons v vs ih =>
      rw [List.map_cons, Expr.normalArguments, Expr.normalArgument, ih, List.map_cons,
        List.map_cons]

theorem normalArguments_nested (es : List Expr) :
    Expr.normalArguments (es.map Argument.nested) = (es.map Expr.normal).map Argument.nested := by
  induction es with
  | nil => rfl
  | cons e es ih =>
      rw [List.map_cons, Expr.normalArguments, Expr.normalArgument, ih, List.map_cons,
        List.map_cons]

section Heads

variable {origin origin' : Origin} {datatype datatype' func func' : Value}
  {args args' : List TermArgument} {lowered lowered' : List Argument}

theorem tidy_column : (mk origin (.string "null") columnName args).tidy =
    mk origin (.string "null") columnName
      [.literal (referenceOf args).name, .literal (referenceOf args).relAlias] := by
  rw [tidy, if_pos ⟨rfl, rfl⟩]

theorem tidy_of_computes (computes : Computes datatype func) :
    (mk origin datatype func args).tidy = mk origin datatype func (tidyArguments args) := by
  rw [tidy, if_neg computes]

theorem column_ne_of_computes (computes : Computes datatype func) :
    (mk origin' (.string "null") columnName args').toValue.normal ≠
      (mk origin datatype func args).toValue.normal := by
  intro h
  obtain ⟨-, hdatatype, hfunc, -⟩ := normal_toValue_mk_eq_iff.mp h
  exact computes ⟨Value.normal_eq_string_iff.mp hdatatype.symm,
    Value.normal_eq_string_iff.mp hfunc.symm⟩

/-- Applications with the same head are compared by their arguments. -/
theorem normal_apply_eq_iff
    (hargs : func.normal = func'.normal →
      (Expr.normalArguments lowered = Expr.normalArguments lowered' ↔
        (argumentValues args).map Value.normal = (argumentValues args').map Value.normal)) :
    (Expr.apply origin datatype func lowered).normal =
        (Expr.apply origin' datatype' func' lowered').normal ↔
      (mk origin datatype func args).toValue.normal =
        (mk origin' datatype' func' args').toValue.normal := by
  rw [Expr.normal, Expr.normal, Expr.apply.injEq, normal_toValue_mk_eq_iff]
  refine and_congr_right fun _ => and_congr_right fun _ => and_congr_right hargs

end Heads

/-- A column reference differs from all other expressions, before and after lowering. -/
theorem IsFormed.apart_of_column {origin : Origin} {args : List TermArgument} (hu : u.IsFormed)
    (other : u.isColumn = false) (hf : u.lower = .ok f) :
    (Expr.column origin (referenceOf args)).normal ≠ f.normal ∧
      (mk origin (.string "null") columnName args).tidy.toValue.normal ≠ u.tidy.toValue.normal := by
  rw [tidy_column]
  cases hu with
  | column names => cases other
  | constant literals typed =>
      rw [eq_of_lower_constant typed hf, tidy_of_computes constant_computes]
      exact ⟨by simp [Expr.normal], column_ne_of_computes constant_computes⟩
  | apply parts typed computes nests formed =>
      obtain ⟨fs, -, rfl⟩ := exists_of_lower_apply typed computes nests hf
      rw [tidy_of_computes computes]
      exact ⟨by simp [Expr.normal], column_ne_of_computes computes⟩

section Cases

variable {origin : Origin} {datatype func : Value}

theorem normal_eq_iff_of_column {args : List TermArgument}
    (names : nameColumn isReference args = true) (hu : u.IsFormed)
    (he : (mk origin (.string "null") columnName args).lower = .ok e) (hf : u.lower = .ok f) :
    e.normal = f.normal ↔
      (mk origin (.string "null") columnName args).tidy.toValue.normal = u.tidy.toValue.normal := by
  rw [lower_column names] at he
  cases he
  cases hcolumn : u.isColumn with
  | false =>
      obtain ⟨hne, hne'⟩ := hu.apart_of_column hcolumn hf
      exact iff_of_false hne hne'
  | true =>
      cases hu with
      | column names' =>
          rw [lower_column names'] at hf
          cases hf
          rw [tidy_column, tidy_column, normal_toValue_mk_eq_iff]
          simp [Expr.normal, Column.normal, argumentValues, argumentValue]
      | constant => simp [isColumn_mk_eq_false constant_computes] at hcolumn
      | apply _ _ computes' => simp [isColumn_mk_eq_false computes'] at hcolumn

theorem normal_eq_iff_of_constant {literals : List Value} (typed : datatype.isText = true)
    (hu : u.IsFormed)
    (he : (mk origin datatype Expr.constantName (literals.map TermArgument.literal)).lower = .ok e)
    (hf : u.lower = .ok f) :
    e.normal = f.normal ↔
      (mk origin datatype Expr.constantName
        (literals.map TermArgument.literal)).tidy.toValue.normal = u.tidy.toValue.normal := by
  cases hu with
  | column names' =>
      have swapped := normal_eq_iff_of_column names' (.constant literals typed) hf he
      rw [eq_comm, swapped, eq_comm]
  | constant literals' typed' =>
      rw [eq_of_lower_constant typed he, eq_of_lower_constant typed' hf,
        tidy_of_computes constant_computes, tidy_of_computes constant_computes]
      apply normal_apply_eq_iff
      intro _
      rw [normalArguments_literal, normalArguments_literal, tidyArguments_literal,
        tidyArguments_literal, argumentValues_literal, argumentValues_literal]
      exact List.map_inj_right fun _ _ => Argument.literal.inj
  | apply parts' typed' computes' nests' formed' =>
      obtain ⟨fs, -, rfl⟩ := exists_of_lower_apply typed' computes' nests' hf
      rw [eq_of_lower_constant typed he, tidy_of_computes constant_computes,
        tidy_of_computes computes']
      apply normal_apply_eq_iff
      intro hfunc
      exact absurd (Value.normal_eq_string_iff.mp hfunc.symm) nests'

end Cases

/-- Lowered expressions are equal exactly if the parsed ones are, with column references in one
form. -/
theorem IsFormed.normal_eq_iff (ht : t.IsFormed) (hu : u.IsFormed) (he : t.lower = .ok e)
    (hf : u.lower = .ok f) :
    e.normal = f.normal ↔ t.tidy.toValue.normal = u.tidy.toValue.normal := by
  induction ht generalizing u e f with
  | column names => exact normal_eq_iff_of_column names hu he hf
  | constant literals typed => exact normal_eq_iff_of_constant typed hu he hf
  | apply parts typed computes nests formed ih =>
      cases hu with
      | column names' =>
          have swapped :=
            normal_eq_iff_of_column names' (.apply parts typed computes nests formed) hf he
          rw [eq_comm, swapped, eq_comm]
      | constant literals' typed' =>
          have swapped :=
            normal_eq_iff_of_constant typed' (.apply parts typed computes nests formed) hf he
          rw [eq_comm, swapped, eq_comm]
      | apply parts' typed' computes' nests' formed' =>
          obtain ⟨es, hes, rfl⟩ := exists_of_lower_apply typed computes nests he
          obtain ⟨fs, hfs, rfl⟩ := exists_of_lower_apply typed' computes' nests' hf
          rw [tidy_of_computes computes, tidy_of_computes computes']
          apply normal_apply_eq_iff
          intro _
          rw [normalArguments_nested, normalArguments_nested, tidyArguments_nested,
            tidyArguments_nested, argumentValues_nested, argumentValues_nested,
            List.map_inj_right fun _ _ => Argument.nested.inj]
          simp only [List.map_map]
          apply map_eq_map_iff_of_forall₂ hes hfs
          intro part hpart part' hpart' e f he hf
          exact ih part hpart (formed' part' hpart') he hf

/-! ### The mirror -/

/-- Lowering mirrors value expressions. It fails exactly if a part that is no column reference has
an unsupported datatype, and reports the first one in preorder. Otherwise the parts of the result
are those of the expression in preorder, its columns are those that are referenced, and two results
are equal exactly if the expressions are, with column references in one form. -/
theorem lower_mirrors (ht : t.IsFormed) :
    ((∃ fault, t.lower = .error fault) ↔ ∃ node ∈ t.walk, node.isUnsupported = true) ∧
    (∀ node, t.walk.find? isUnsupported = some node → t.lower = .error node.report) ∧
    ∀ e, t.lower = .ok e →
      List.Forall₂ (fun node part => part.func = node.func ∧ part.datatype = node.datatype ∧
        part.origin = node.origin) t.walk e.walk ∧
      ((∀ c ∈ e.columns, ∃ node ∈ t.walk, node.column? = some c) ∧
        (∀ node ∈ t.walk, ∀ c, node.column? = some c → ∃ d ∈ e.columns, d.same c = true) ∧
        e.columns.Pairwise fun c d => c.same d = false) ∧
      ∀ (u : Term) (f : Expr), u.IsFormed → u.lower = .ok f →
        (e.same f = true ↔ t.tidy.same u.tidy = true) := by
  have reports := ht.reports
  refine ⟨?_, ?_, ?_⟩
  · rw [reports.exists_error_iff]
    simp [List.filter_eq_nil_iff]
  · intro node hnode
    rw [← List.head?_filter] at hnode
    obtain ⟨others, hfilter⟩ := List.head?_eq_some_iff.mp hnode
    rw [hfilter] at reports
    exact reports
  · intro e he
    refine ⟨?_, columns_of_lower he, ?_⟩
    · exact (counterparts_of_lower he).imp fun _ _ part => ⟨part.func, part.datatype, part.origin⟩
    · intro u f hu hf
      rw [Expr.same, decide_eq_true_iff, ht.normal_eq_iff hu he hf, same, Value.same_iff]

namespace Sample

/-- A constant of a type. -/
def one (datatype : String) : Term :=
  .mk {} (.string datatype) Expr.constantName [.literal (.int 1)]

/-- A comparison of a column with a constant of a type. -/
def compared (names : List TermArgument) (datatype : String) : Term :=
  .mk {} (.string "boolean") (.string ">")
    [.nested (.mk {} (.string "null") columnName names), .nested (one datatype)]

theorem isFormed_compared {names : List TermArgument} (h : nameColumn isReference names = true)
    (datatype : String) : (compared names datatype).IsFormed := by
  refine .apply [_, _] rfl (by decide) (by decide) (List.forall_mem_cons.mpr ⟨.column h, ?_⟩)
  exact List.forall_mem_singleton.mpr (.constant [.int 1] rfl)

/-- A column with an empty alias, and the same column without alias but with an unused argument. -/
def spellings : List TermArgument × List TermArgument :=
  ([.literal (.string "a"), .literal (.string "")],
    [.literal (.string "a"), .literal .null, .literal (.int 7)])

/-- Both spellings of a column are lowered to the same, and an unsupported type is reported from
below a comparison. -/
theorem lower_mirrors_compared :
    (∃ e f, (compared spellings.1 "number").lower = .ok e ∧
      (compared spellings.2 "number").lower = .ok f ∧ e.same f = true) ∧
    (compared spellings.1 "interval").lower =
      .error (.unsupported "value expressions of datatype 'interval'") := by
  constructor
  · obtain ⟨-, -, mirror⟩ :=
      @lower_mirrors (compared spellings.1 "number") (isFormed_compared rfl "number")
    obtain ⟨-, -, equal⟩ := mirror _ rfl
    refine ⟨_, _, rfl, rfl, ?_⟩
    exact (equal _ _ (isFormed_compared rfl "number") rfl).mpr (Value.same_iff.mpr rfl)
  · obtain ⟨-, failure, -⟩ :=
      @lower_mirrors (compared spellings.1 "interval") (isFormed_compared rfl "interval")
    exact failure (one "interval") rfl

end Sample

end Term

end Query

end LogicalPlan
