import LogicalPlan.Proofs.Lowering.Located

/-!
# Limits as windows of rows

An executor that numbers the rows in front of every selection keeps, for the condition of a limit,
the rows of a window: it drops as many rows as the offset says and takes as many of the others as
the limit says. Limits over each other are windows of windows.

## Implementation notes

Plans are not executed here. An `Executor` is anything that gives plans their rows and obeys the
laws for selections and for the few functions that occur in the condition of a limit.
-/

namespace LogicalPlan

open Outcome

/-! ### Numbered rows -/

section Rows

variable {Row : Type}

/-- The rows that a condition keeps. Every row is judged together with its number, the first one is
row number one. -/
def keptRows (eval : Expr → Nat → Row → Value) (condition : Expr) (rows : List Row) : List Row :=
  ((rows.zipIdx 1).filter fun r => decide (eval condition r.2 r.1 = .bool true)).map Prod.fst

/-- Rows with a number above a bound are those that are left when the others are dropped. -/
theorem map_filter_zipIdx_gt (rows : List Row) (first offset : Nat) :
    ((rows.zipIdx first).filter fun r => decide (offset < r.2)).map Prod.fst =
      rows.drop (offset + 1 - first) := by
  induction rows generalizing first with
  | nil => simp
  | cons row rows ih =>
      rw [List.zipIdx_cons, List.filter_cons]
      by_cases h : offset < first
      · have next : offset + 1 - (first + 1) = 0 := by omega
        have here : offset + 1 - first = 0 := by omega
        simp [h, ih, next, here]
      · obtain ⟨skipped, here⟩ : ∃ n, offset + 1 - first = n + 1 := ⟨offset - first, by omega⟩
        have next : offset + 1 - (first + 1) = skipped := by omega
        simp [h, ih, next, here]

/-- Rows with a number between two bounds are a window of the rows. -/
theorem map_filter_zipIdx_between (rows : List Row) (first offset last : Nat) :
    ((rows.zipIdx first).filter fun r =>
        decide (offset < r.2) && decide (r.2 ≤ last)).map Prod.fst =
      (rows.take (last + 1 - first)).drop (offset + 1 - first) := by
  induction rows generalizing first with
  | nil => simp
  | cons row rows ih =>
      rw [List.zipIdx_cons, List.filter_cons]
      by_cases hlast : first ≤ last
      · obtain ⟨n, within⟩ : ∃ n, last + 1 - first = n + 1 := ⟨last - first, by omega⟩
        have withinNext : last + 1 - (first + 1) = n := by omega
        by_cases h : offset < first
        · have next : offset + 1 - (first + 1) = 0 := by omega
          have here : offset + 1 - first = 0 := by omega
          simp [h, hlast, ih, next, here, within, withinNext]
        · obtain ⟨skipped, here⟩ : ∃ n, offset + 1 - first = n + 1 := ⟨offset - first, by omega⟩
          have next : offset + 1 - (first + 1) = skipped := by omega
          simp [h, ih, next, here, within, withinNext]
      · have none : last + 1 - first = 0 := by omega
        have noneNext : last + 1 - (first + 1) = 0 := by omega
        simp [hlast, ih, none, noneNext]

end Rows

/-! ### Executors -/

/-- A way to execute plans. Selections keep the rows that meet their condition, and the functions in
the condition of a limit have their usual meaning on integers. -/
structure Executor (Row : Type) where
  /-- The value of an expression in the row with the given number. -/
  eval : Expr → Nat → Row → Value
  /-- The rows of a plan. -/
  run : Plan → List Row
  run_selection : ∀ notes condition input,
    run (.unary notes (.selection condition) input) = keptRows eval condition (run input)
  eval_rowNumber : ∀ origin n row, eval (rowNumber origin) n row = .int n
  eval_constant : ∀ origin (i : Int) n row, eval (numberConstant origin (.int i)) n row = .int i
  eval_gt : ∀ origin left right n row (i j : Int), eval left n row = .int i →
    eval right n row = .int j →
      eval (booleanOf origin ">" left right) n row = .bool (decide (i > j))
  eval_le : ∀ origin left right n row (i j : Int), eval left n row = .int i →
    eval right n row = .int j →
      eval (booleanOf origin "<=" left right) n row = .bool (decide (i ≤ j))
  eval_and : ∀ origin left right n row (a b : Bool), eval left n row = .bool a →
    eval right n row = .bool b →
      eval (booleanOf origin "and" left right) n row = .bool (a && b)

namespace Executor

variable {Row : Type} (ex : Executor Row)

theorem eval_above (origin : Origin) (offset n : Nat) (row : Row) :
    ex.eval (booleanOf origin ">" (rowNumber origin) (numberConstant origin (.int offset))) n row =
      .bool (decide (offset < n)) := by
  rw [ex.eval_gt _ _ _ _ _ _ _ (ex.eval_rowNumber _ _ _) (ex.eval_constant _ _ _ _)]
  simp

theorem eval_within (origin : Origin) (last n : Nat) (row : Row) :
    ex.eval (booleanOf origin "<=" (rowNumber origin) (numberConstant origin (.int last))) n row =
      .bool (decide (n ≤ last)) := by
  rw [ex.eval_le _ _ _ _ _ _ _ (ex.eval_rowNumber _ _ _) (ex.eval_constant _ _ _ _)]
  simp

/-- Without a limit, the rows after the offset are kept. -/
theorem exists_limitCondition_all (offset : Nat) (span : Option SourceSpan) :
    ∃ condition, limitCondition (.int (-1)) (.int offset) span = .ok condition ∧
      ∀ rows, keptRows ex.eval condition rows = rows.drop offset := by
  refine ⟨_, rfl, fun rows => ?_⟩
  simp only [keptRows, ex.eval_above, Value.bool.injEq, decide_eq_true_eq]
  rw [map_filter_zipIdx_gt, Nat.add_sub_cancel]

/-- With a limit, at most that many of the rows after the offset are kept. -/
theorem exists_limitCondition (limit offset : Nat) (span : Option SourceSpan) :
    ∃ condition, limitCondition (.int limit) (.int offset) span = .ok condition ∧
      ∀ rows, keptRows ex.eval condition rows = (rows.drop offset).take limit := by
  have bounded : isLimitAll (.int limit) = false := by
    simp [isLimitAll, Value.same, Value.normal]
  have last : (Value.int limit).add (.int offset) = .ok (.int (limit + offset : Nat)) := rfl
  refine ⟨_, by rw [limitCondition, bounded, if_neg Bool.false_ne_true, last]; rfl, fun rows => ?_⟩
  have kept (origin : Origin) (n : Nat) (row : Row) :=
    ex.eval_and origin _ _ n row _ _ (ex.eval_above origin offset n row)
      (ex.eval_within origin (limit + offset) n row)
  simp only [keptRows, kept, Value.bool.injEq, Bool.decide_eq_true]
  calc ((rows.zipIdx 1).filter fun r => decide (offset < r.2) && decide (r.2 ≤ limit + offset)).map
        Prod.fst
      = (rows.take (limit + offset + 1 - 1)).drop (offset + 1 - 1) :=
        map_filter_zipIdx_between rows 1 offset (limit + offset)
    _ = (rows.take (limit + offset)).drop offset := by rw [Nat.add_sub_cancel, Nat.add_sub_cancel]
    _ = (rows.drop offset).take limit := by rw [List.drop_take, Nat.add_sub_cancel]

end Executor

/-! ### Limits over each other -/

/-- A selection with positions keeps the positions of a plan complete. -/
theorem Plan.verifyPositions_selection {notes : Notes} {condition : Expr} {p : Plan}
    (hspan : notes.span ≠ none) (hcondition : condition.IsPositioned)
    (hp : p.verifyPositions = .ok ()) :
    (unary notes (.selection condition) p).verifyPositions = .ok () := by
  obtain ⟨spans, expressions⟩ := verifyPositions_eq_ok.mp hp
  refine verifyPositions_eq_ok.mpr ⟨List.forall_mem_cons.mpr ⟨hspan, spans⟩, ?_⟩
  exact List.forall_mem_cons.mpr ⟨hcondition, expressions⟩

namespace Query

/-- A limit with its position in a query. A missing bound stands for all rows. -/
structure Window where
  span : SourceSpan
  parenthesized : Bool := false
  limit : Option Nat
  offset : Nat

namespace Window

/-- The bound as queries write it. -/
def count (w : Window) : Value :=
  match w.limit with
  | some limit => .int limit
  | none => .int (-1)

/-- The limit over a query. -/
def limited (w : Window) (q : Sql) : Sql :=
  .unary ⟨some w.span, w.parenthesized⟩ (.limit w.count (.int w.offset)) q

/-- The rows in the window. -/
def rows {Row : Type} (w : Window) (rows : List Row) : List Row :=
  match w.limit with
  | some limit => (rows.drop w.offset).take limit
  | none => rows.drop w.offset

end Window

variable {Row : Type} (ex : Executor Row)

/-- The condition of a limit keeps the rows in its window. -/
theorem Window.exists_condition (w : Window) :
    ∃ condition, limitCondition w.count (.int w.offset) (some w.span) = .ok condition ∧
      ∀ rows, keptRows ex.eval condition rows = w.rows rows := by
  unfold count Window.rows
  cases w.limit with
  | some limit => exact ex.exists_limitCondition limit w.offset _
  | none => exact ex.exists_limitCondition_all w.offset _

variable {catalog : Catalog} {settings : Settings} {q : Sql} {p : Plan}

/-- A limit over a query puts a selection with positions over the plan of the query. -/
theorem Window.exists_lower_limited (w : Window) (hp : (q.lower catalog settings).result = .ok p) :
    ∃ notes condition,
      ((w.limited q).lower catalog settings).result = .ok (.unary notes (.selection condition) p) ∧
      (∀ rows, keptRows ex.eval condition rows = w.rows rows) ∧
      notes.span ≠ none ∧ condition.IsPositioned := by
  obtain ⟨condition, hcondition, kept⟩ := w.exists_condition ex
  have placed : condition.IsPlaced fun _ => True := isPlaced_of_limitCondition trivial hcondition
  obtain ⟨text, htext⟩ := (hasText_of_limitCondition hcondition).exists_ok
  have reported : loggedCondition settings.verbose condition = .ok () := by
    unfold loggedCondition
    rw [htext]
    cases settings.verbose <;> rfl
  have operator : (SqlUnary.limit w.count (.int w.offset)).operator ⟨some w.span, w.parenthesized⟩
      settings.verbose = .ok (.selection condition) := by
    simp only [SqlUnary.operator, Origin.require, ok_bind, hcondition, reported]
  refine ⟨({} : Notes).overlay w.span w.parenthesized [], condition, ?_, kept, ?_,
    placed.isPositioned⟩
  · rw [limited, Sql.lower, Traced.result_bind, SqlUnary.result_lower operator, hp]
    rfl
  · exact Option.some_ne_none w.span

/-- Limits over a query put selections over its plan, which keep the rows in their windows one after
the other. They do so with positions. -/
theorem Window.exists_lower_stack (hp : (q.lower catalog settings).result = .ok p)
    (windows : List Window) :
    ∃ p', ((windows.foldr Window.limited q).lower catalog settings).result = .ok p' ∧
      ex.run p' = windows.foldr Window.rows (ex.run p) ∧
      (p.verifyPositions = .ok () → p'.verifyPositions = .ok ()) := by
  induction windows with
  | nil => exact ⟨p, hp, rfl, id⟩
  | cons w windows ih =>
      obtain ⟨below, hbelow, rows, positions⟩ := ih
      obtain ⟨notes, condition, lowered, kept, hspan, positioned⟩ :=
        w.exists_lower_limited ex hbelow
      refine ⟨_, lowered, ?_, fun h => ?_⟩
      · rw [ex.run_selection, kept, rows, List.foldr_cons]
      · exact Plan.verifyPositions_selection hspan positioned (positions h)

/-- The condition of a limit implements its window: the rows that it keeps are those after the
offset, and at most as many of them as the limit says. Limits over each other keep the rows of their
windows one after the other, in a lowered query as in a finished plan. -/
theorem limits_windows :
    (∀ (limit offset : Nat) (span : Option SourceSpan) (rows : List Row),
      (∃ condition, limitCondition (.int limit) (.int offset) span = .ok condition ∧
        keptRows ex.eval condition rows = (rows.drop offset).take limit) ∧
      ∃ condition, limitCondition (.int (-1)) (.int offset) span = .ok condition ∧
        keptRows ex.eval condition rows = rows.drop offset) ∧
    ∀ (windows : List Window) (q : Sql) (catalog : Catalog) (settings : Settings) (p : Plan),
      ((q.lower catalog settings).result = .ok p →
        ∃ p', ((windows.foldr Window.limited q).lower catalog settings).result = .ok p' ∧
          ex.run p' = windows.foldr Window.rows (ex.run p)) ∧
      ((q.compile catalog settings).result = .ok p →
        ∃ p', ((windows.foldr Window.limited q).compile catalog settings).result = .ok p' ∧
          ex.run p' = windows.foldr Window.rows (ex.run p)) := by
  constructor
  · intro limit offset span rows
    obtain ⟨bounded, hbounded, window⟩ := ex.exists_limitCondition limit offset span
    obtain ⟨all, hall, rest⟩ := ex.exists_limitCondition_all offset span
    exact ⟨⟨bounded, hbounded, window rows⟩, ⟨all, hall, rest rows⟩⟩
  · intro windows q catalog settings p
    constructor
    · intro hp
      obtain ⟨p', hp', rows, -⟩ := Window.exists_lower_stack ex hp windows
      exact ⟨p', hp', rows⟩
    · intro hcompiled
      simp only [Sql.compile, Traced.result_bind, Traced.result_lift] at hcompiled ⊢
      obtain ⟨source, hsource, hverified⟩ := bind_eq_ok.mp hcompiled
      obtain ⟨wanted, rfl⟩ := Plan.verifiedIf_eq_ok.mp hverified
      obtain ⟨p', hp', rows, positions⟩ := Window.exists_lower_stack ex hsource windows
      refine ⟨p', bind_eq_ok.mpr ⟨p', hp', ?_⟩, rows⟩
      exact Plan.verifiedIf_eq_ok.mpr ⟨fun h => positions (wanted h), rfl⟩

namespace Sample

/-- The values of the functions in the condition of a limit. -/
def applied (func : String) (n : Nat) (args : List Value) : Value :=
  match func, args with
  | "rownum", [] => .int n
  | "constant", [v] => v
  | ">", [.int i, .int j] => .bool (decide (i > j))
  | "<=", [.int i, .int j] => .bool (decide (i ≤ j))
  | "and", [.bool a, .bool b] => .bool (a && b)
  | _, _ => .null

mutual

/-- The value of an expression in the row with the given number. -/
def evaluate (n : Nat) : Expr → Value
  | .column _ _ => .null
  | .apply _ _ (.string func) args => applied func n (evaluateArguments n args)
  | .apply _ _ _ _ => .null

/-- The value of an argument. -/
def evaluateArgument (n : Nat) : Argument → Value
  | .literal v => v
  | .nested e => evaluate n e

/-- The values of arguments. -/
def evaluateArguments (n : Nat) : List Argument → List Value
  | [] => []
  | arg :: args => evaluateArgument n arg :: evaluateArguments n args

end

/-- The rows of a base relation under selections. -/
def selected : Plan → List (List Value)
  | .relation _ base => base.rows
  | .unary _ (.selection condition) input =>
    keptRows (fun e n _ => evaluate n e) condition (selected input)
  | _ => []

theorem evaluate_booleanOf (origin : Origin) (operator : String) (left right : Expr) (n : Nat) :
    evaluate n (booleanOf origin operator left right) =
      applied operator n [evaluate n left, evaluate n right] := by
  simp [booleanOf, evaluate, evaluateArguments, evaluateArgument]

/-- An executor of selections over base relations. -/
def executor : Executor (List Value) where
  eval e n _ := evaluate n e
  run := selected
  run_selection notes condition input := by rw [selected]
  eval_rowNumber origin n row := by simp [rowNumber, evaluate, evaluateArguments, applied]
  eval_constant origin i n row := by
    simp [numberConstant, Expr.constantName, evaluate, evaluateArguments, evaluateArgument, applied]
  eval_gt origin left right n row i j hi hj := by
    rw [evaluate_booleanOf, hi, hj]
    rfl
  eval_le origin left right n row i j hi hj := by
    rw [evaluate_booleanOf, hi, hj]
    rfl
  eval_and origin left right n row a b ha hb := by
    rw [evaluate_booleanOf, ha, hb]
    rfl

/-- A catalog with one relation of five rows. -/
def counted : Catalog :=
  [("N", {}, { name := .string "N", rows := [[.int 1], [.int 2], [.int 3], [.int 4], [.int 5]] })]

/-- At most two rows after the first one, of the rows after the first one. -/
def stacked : List Window :=
  [{ span := SourceSpan.ofText "LIMIT 2 OFFSET 1", limit := some 2, offset := 1 },
    { span := SourceSpan.ofText "LIMIT ALL OFFSET 1", limit := none, offset := 1 }]

/-- Of five rows, the third and the fourth one are left. -/
theorem limits_windows_stacked :
    ∃ p, ((stacked.foldr Window.limited (.relation origin (.string "N") .null)).compile
        counted {}).result = .ok p ∧
      executor.run p = [[.int 3], [.int 4]] := by
  obtain ⟨-, windows⟩ := limits_windows executor
  obtain ⟨-, compiled⟩ := windows stacked (.relation origin (.string "N") .null) counted {} _
  obtain ⟨p, hp, rows⟩ := compiled rfl
  exact ⟨p, hp, rows⟩

end Sample

end Query

end LogicalPlan
