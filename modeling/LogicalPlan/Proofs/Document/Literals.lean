import LogicalPlan.Proofs.Document.RoundTrip
import LogicalPlan.Proofs.Lowering.Terms

/-!
# Literals in documents and in lowering

Loading takes the arguments of constants and column references literally, whatever their types are.
Lowering agrees on constants, but it takes a column reference for one only if its type is unknown.
Of any other supported type it is a function, whose literals are no expressions. A type that is a
list or an object cannot even be looked up. The main statement tells for which documents lowering is
not stopped by one of these: those whose first obstacle in preorder is an unsupported type, if there
is any obstacle at all.

## Implementation notes

`Term.obstacle` is what lowering finds wrong with a node itself. That lowering reports the first
obstacle is proved along the document and not along the loaded expression: where a function takes
expressions, the document tells that every argument is one.
-/

namespace LogicalPlan

open Outcome

namespace Outcome

variable {α : Type} {faults : List Fault} {x : Outcome α}

/-- An outcome that is described by its reports fails with the first of them only. -/
theorem Reports.eq_error_iff (h : Reports faults x) (fault : Fault) :
    x = .error fault ↔ faults.head? = some fault := by
  cases faults with
  | nil =>
      obtain ⟨a, rfl⟩ := h
      simp
  | cons first rest =>
      obtain rfl : x = .error first := h
      simp

end Outcome

namespace Query

namespace Term

/-! ### Obstacles -/

/-- What keeps a node from being lowered, apart from what is nested in it: a type that cannot be
looked up, a type that is not supported, or literals in the place of expressions. -/
def obstacle (t : Term) : Option Fault :=
  if t.isColumn then none
  else if !t.datatype.isHashable then some (.illTyped .wrongType)
  else if !supportedTypes.contains t.datatype then some t.report
  else if t.func = columnName then some (.illTyped .noAttribute)
  else none

variable {origin : Origin} {datatype func : Value} {args : List TermArgument}

theorem obstacle_column : (mk origin (.string "null") columnName args).obstacle = none := by
  rw [obstacle, if_pos]
  exact decide_eq_true ⟨rfl, rfl⟩

theorem obstacle_of_computes (computes : Computes datatype func) :
    (mk origin datatype func args).obstacle =
      if !datatype.isHashable then some (.illTyped .wrongType)
      else if !supportedTypes.contains datatype then some (mk origin datatype func args).report
      else if func = columnName then some (.illTyped .noAttribute)
      else none := by
  rw [obstacle, isColumn_mk_eq_false computes]
  rfl

/-- An obstacle is a type that is not supported, or a runtime error. -/
theorem eq_of_obstacle {t : Term} {fault : Fault} (h : t.obstacle = some fault) :
    (∃ construct, fault = .unsupported construct) ∨ ∃ cause, fault = .illTyped cause := by
  unfold obstacle at h
  split_ifs at h
  · exact .inr ⟨_, (Option.some.inj h).symm⟩
  · exact .inl ⟨_, (Option.some.inj h).symm⟩
  · exact .inr ⟨_, (Option.some.inj h).symm⟩

/-- A column reference of a known type cannot be lowered. -/
theorem exists_obstacle_of_columnName (computes : Computes datatype columnName) :
    ∃ fault, (mk origin datatype columnName args).obstacle = some fault := by
  rw [obstacle_of_computes computes, if_pos rfl]
  split_ifs
  · exact ⟨_, rfl⟩
  · exact ⟨_, rfl⟩
  · exact ⟨_, rfl⟩

/-- Apart from columns, a node is lowered as far as its obstacle allows. -/
theorem lower_of_computes (computes : Computes datatype func)
    (literal : func = columnName → lowerArguments args = noAttribute) :
    (mk origin datatype func args).lower =
      (mk origin datatype func args).obstacle.elim
        (if func = Expr.constantName then
          .ok (.apply origin datatype func (args.map fun a => .literal (literalOf a)))
        else (lowerArguments args).map (.apply origin datatype func)) .error := by
  rw [obstacle_of_computes computes, lower, if_neg computes]
  split
  case isTrue => rfl
  case isFalse =>
    split
    case isTrue => rfl
    case isFalse =>
      by_cases hcolumn : func = columnName
      case pos =>
        have nests : func ≠ Expr.constantName := by
          rw [hcolumn]
          decide
        rw [if_neg nests, if_pos hcolumn, literal hcolumn]
        rfl
      case neg => rw [if_neg hcolumn, Option.elim_none, map_eq_bind]

/-- The obstacle of a node is reported in front of those below it. -/
theorem reports_obstacle {t : Term} {below : List Term} {x : Outcome Expr}
    (hx : Reports (below.filterMap obstacle) x) :
    Reports ((t :: below).filterMap obstacle) (t.obstacle.elim x .error) := by
  rw [List.filterMap_cons]
  cases t.obstacle with
  | none => exact hx
  | some fault => rfl

theorem walkArguments_literal (literals : List Value) :
    walkArguments (literals.map TermArgument.literal) = [] := by
  induction literals with
  | nil => rfl
  | cons v vs ih => rw [List.map_cons, walkArguments, ih]

theorem walk_columnName (items : List Value) :
    (mk origin datatype columnName (items.map TermArgument.literal)).walk =
      [mk origin datatype columnName (items.map TermArgument.literal)] := by
  rw [walk, walkArguments_literal, ite_self, ite_self]

/-- The name of a column stands in the place of an expression. -/
theorem lowerArguments_of_nameColumn {items : List Value}
    (names : nameColumn isReference (items.map TermArgument.literal) = true) :
    lowerArguments (items.map TermArgument.literal) = noAttribute := by
  cases items with
  | nil => cases names
  | cons name rest => rfl

end Term

end Query

namespace Document

open Query

/-! ### Loading -/

/-- The arguments that a document writes down; without the attribute there are none. -/
def writtenArguments (members : Members) : Outcome (List Value) :=
  match members.get? "args" with
  | none => .ok []
  | some raw => raw.items

/-- All arguments are read as literals, or those that are objects as expressions. -/
def readArguments (members : Members) (func : Value) : Outcome (List TermArgument) :=
  match members.get? "args" with
  | some (.list items) =>
    if Term.takesLiterals func then .ok (items.map TermArgument.literal) else loadArguments items
  | _ => (writtenArguments members).map (List.map TermArgument.literal)

/-- An expression is loaded from the attributes of its document. -/
theorem loadTerm_eq (doc : Value) :
    loadTerm doc = (do
      let members ← membersOf doc
      let func ← requireValue members.val "func"
      let args ← readArguments members.val func
      let datatype ← requireValue members.val "datatype"
      let origin ← loadOrigin members.val
      .ok (.mk origin datatype func args)) := by
  rw [loadTerm]
  congr 1
  funext below
  obtain ⟨members, hmembers⟩ := below
  dsimp only
  congr 1
  funext func
  unfold readArguments writtenArguments
  split
  case h_1 hmissing => simp [hmissing, Except.map]
  case h_2 items hitems =>
    rw [hitems]
    dsimp only
    split <;> rfl
  case h_3 raw hother hraw =>
    -- Whatever else can be iterated over is read literally for every function.
    rw [hraw]
    cases raw with
    | list items => exact absurd rfl (hother items)
    | _ => simp [map_eq_bind]

/-- A document may be given as JSON text. -/
theorem loadTerm_eq_of_membersOf {doc : Value} {members : MembersBelow doc.weight}
    (h : membersOf doc = .ok members) : loadTerm doc = loadTerm (.object members.val) := by
  rw [loadTerm_eq, h, loadTerm_eq (.object members.val)]
  rfl

/-- A loaded expression applies the function of its document to the arguments that are read. -/
theorem exists_of_loadTerm {members : Members} {func : Value} {t : Term}
    (hfunc : members.get? "func" = some func) (h : loadTerm (.object members) = .ok t) :
    ∃ origin datatype args, readArguments members func = .ok args ∧
      t = .mk origin datatype func args := by
  rw [loadTerm_eq, membersOf, ok_bind, requireValue_eq, hfunc, Option.elim_some, ok_bind] at h
  obtain ⟨args, hargs, h⟩ := bind_eq_ok.mp h
  obtain ⟨datatype, -, h⟩ := bind_eq_ok.mp h
  obtain ⟨origin, -, h⟩ := bind_eq_ok.mp h
  exact ⟨origin, datatype, args, hargs, (Except.ok.inj h).symm⟩

section Arguments

variable {members : Members} {func : Value}

theorem readArguments_of_takesLiterals (h : Term.takesLiterals func = true) :
    readArguments members func =
      (writtenArguments members).map (List.map TermArgument.literal) := by
  unfold readArguments
  split
  case h_1 items hitems =>
    rw [if_pos h, writtenArguments, hitems]
    rfl
  case h_2 => rfl

theorem readArguments_of_nil (h : writtenArguments members = .ok []) :
    readArguments members func = .ok [] := by
  unfold readArguments
  split
  case h_1 items hitems =>
    rw [writtenArguments, hitems] at h
    obtain rfl : items = [] := Except.ok.inj h
    rw [loadArguments]
    exact ite_self _
  case h_2 =>
    rw [h]
    rfl

theorem loadArguments_object (parts : List Members) :
    loadArguments (parts.map Value.object) =
      (parts.mapM fun part => loadTerm (.object part)).map (List.map TermArgument.nested) := by
  induction parts with
  | nil => rw [List.map_nil, loadArguments]; rfl
  | cons part parts ih =>
      rw [List.map_cons, loadArguments, ih, List.mapM_cons]
      cases loadTerm (.object part) with
      | error fault => rfl
      | ok t => cases parts.mapM fun part => loadTerm (.object part) <;> rfl

theorem readArguments_of_object {parts : List Members} (nests : Term.takesLiterals func = false)
    (h : members.get? "args" = some (.list (parts.map Value.object))) :
    readArguments members func =
      (parts.mapM fun part => loadTerm (.object part)).map (List.map TermArgument.nested) := by
  rw [readArguments, h, ← loadArguments_object]
  dsimp only
  rw [nests, if_neg Bool.false_ne_true]

end Arguments

/-! ### Divided documents -/

/-- Column references name a column, and all arguments of functions other than constants and column
references are documents of expressions, at every depth. -/
inductive IsDivided : Members → Prop where
  | constant {members : Members} (hfunc : members.get? "func" = some Expr.constantName) :
      IsDivided members
  | column {members : Members} {items : List Value}
      (hfunc : members.get? "func" = some Term.columnName)
      (written : writtenArguments members = .ok items)
      (names : Term.nameColumn Term.isReference (items.map TermArgument.literal) = true) :
      IsDivided members
  | nullary {members : Members} {name : Value} (hfunc : members.get? "func" = some name)
      (nests : Term.takesLiterals name = false) (written : writtenArguments members = .ok []) :
      IsDivided members
  | apply {members : Members} {name : Value} {parts : List Members}
      (hfunc : members.get? "func" = some name) (nests : Term.takesLiterals name = false)
      (written : members.get? "args" = some (.list (parts.map Value.object)))
      (divided : ∀ part ∈ parts, IsDivided part) : IsDivided members

variable {members : Members} {func : Value} {t : Term}

/-- Functions of expressions are no constants and no columns. -/
theorem ne_of_takesLiterals (h : Term.takesLiterals func = false) :
    func ≠ Expr.constantName ∧ func ≠ Term.columnName := by
  simpa [Term.takesLiterals] using h

/-- A function of expressions is lowered as far as it and its parts allow. -/
theorem reports_apply {origin : Origin} {datatype : Value} {parts : List Term}
    (nests : Term.takesLiterals func = false)
    (hparts : ∀ part ∈ parts, Reports (part.walk.filterMap Term.obstacle) part.lower) :
    Reports ((Term.mk origin datatype func (parts.map TermArgument.nested)).walk.filterMap
        Term.obstacle)
      (Term.mk origin datatype func (parts.map TermArgument.nested)).lower := by
  obtain ⟨constant, column⟩ := ne_of_takesLiterals nests
  have computes : Term.Computes datatype func := fun h => column h.2
  rw [Term.walk_apply parts computes constant,
    Term.lower_of_computes computes fun h => absurd h column, if_neg constant,
    Term.lowerArguments_nested]
  apply Term.reports_obstacle
  rw [List.filterMap_flatMap, map_eq_bind, map_eq_bind]
  refine ((Reports.mapM hparts).followed fun es _ => ⟨_, rfl⟩).followed fun args _ => ⟨_, rfl⟩

/-- Lowering an expression that was loaded from a divided document reports the first obstacle in
preorder. -/
theorem IsDivided.reports (h : IsDivided members) (hload : loadTerm (.object members) = .ok t) :
    Reports (t.walk.filterMap Term.obstacle) t.lower := by
  induction h generalizing t with
  | constant hfunc =>
      obtain ⟨origin, datatype, args, -, rfl⟩ := exists_of_loadTerm hfunc hload
      rw [Term.walk_constant,
        Term.lower_of_computes Term.constant_computes fun h => absurd h (by decide), if_pos rfl]
      exact Term.reports_obstacle ⟨_, rfl⟩
  | column hfunc written names =>
      obtain ⟨origin, datatype, args, hargs, rfl⟩ := exists_of_loadTerm hfunc hload
      rw [readArguments_of_takesLiterals rfl, written] at hargs
      obtain rfl := Except.ok.inj hargs
      rw [Term.walk_columnName]
      -- Of unknown type it is a column; of any other type its name stands in for an expression.
      by_cases unknown : datatype = .string "null"
      case pos =>
        rw [unknown, Term.lower_column names, List.filterMap_cons, Term.obstacle_column]
        exact ⟨_, rfl⟩
      case neg =>
        have computes : Term.Computes datatype Term.columnName := fun h => unknown h.1
        obtain ⟨fault, hfault⟩ := Term.exists_obstacle_of_columnName computes
        rw [Term.lower_of_computes computes fun _ => Term.lowerArguments_of_nameColumn names,
          List.filterMap_cons, hfault]
        rfl
  | nullary hfunc nests written =>
      obtain ⟨origin, datatype, args, hargs, rfl⟩ := exists_of_loadTerm hfunc hload
      rw [readArguments_of_nil written] at hargs
      obtain rfl := Except.ok.inj hargs
      have below : ∀ part ∈ ([] : List Term),
          Reports (part.walk.filterMap Term.obstacle) part.lower := fun _ h => nomatch h
      exact reports_apply nests below
  | apply hfunc nests written divided ih =>
      obtain ⟨origin, datatype, args, hargs, rfl⟩ := exists_of_loadTerm hfunc hload
      rw [readArguments_of_object nests written] at hargs
      obtain ⟨parts, hparts, rfl⟩ := map_eq_ok.mp hargs
      apply reports_apply nests
      intro part hpart
      obtain ⟨doc, hdoc, hload⟩ := exists_of_mem_mapM hparts hpart
      exact ih doc hdoc hload

/-- An expression loaded from a divided document is lowered up to its first obstacle in preorder.
So it is lowered, or reported as not supported, exactly if that is no type that cannot be looked up
and no column reference of a known type. -/
theorem loadTerm_lowers {doc : Value} {members : MembersBelow doc.weight}
    (hdoc : membersOf doc = .ok members) (divided : IsDivided members.val)
    (hload : loadTerm doc = .ok t) :
    (∀ fault, t.lower = .error fault ↔ t.walk.findSome? Term.obstacle = some fault) ∧
    (((∃ e, t.lower = .ok e) ∨ ∃ construct, t.lower = .error (.unsupported construct)) ↔
      ∀ cause, t.walk.findSome? Term.obstacle ≠ some (.illTyped cause)) := by
  rw [loadTerm_eq_of_membersOf hdoc] at hload
  have reports := divided.reports hload
  have failure (fault : Fault) :
      t.lower = .error fault ↔ t.walk.findSome? Term.obstacle = some fault := by
    rw [reports.eq_error_iff, List.head?_filterMap]
  refine ⟨failure, ?_⟩
  constructor
  · rintro (⟨e, he⟩ | ⟨construct, hconstruct⟩) cause hcause
    · rw [(failure _).mpr hcause] at he
      cases he
    · rw [(failure _).mpr hcause] at hconstruct
      cases hconstruct
  · intro readable
    cases hlower : t.lower with
    | ok e => exact .inl ⟨e, rfl⟩
    | error fault =>
        have first := (failure fault).mp hlower
        obtain ⟨node, -, hnode⟩ := List.exists_of_findSome?_eq_some first
        obtain ⟨construct, rfl⟩ | ⟨cause, rfl⟩ := Term.eq_of_obstacle hnode
        · exact .inr ⟨construct, rfl⟩
        · exact absurd first (readable cause)

namespace Sample

/-- The document of an expression. -/
def expression (datatype : Value) (func : String) (args : List Value) : Members :=
  Members.ofFields [("datatype", datatype), ("func", .string func), ("args", .list args)]

/-- The document of a constant of a type. -/
def one (datatype : Value) : Members :=
  expression datatype "constant" [.int 1]

theorem loadTerm_one (datatype : Value) :
    loadTerm (.object (one datatype)) =
      .ok (.mk {} datatype Expr.constantName [.literal (.int 1)]) := by
  rw [loadTerm_eq]
  rfl

/-- The document of a reference to a column `a` that is declared to have a type. -/
def typedColumn (datatype : Value) : Members :=
  expression datatype "columnValue" [.string "a"]

theorem isDivided_typedColumn (datatype : Value) : IsDivided (typedColumn datatype) :=
  .column rfl rfl rfl

theorem loadTerm_typedColumn (datatype : Value) :
    loadTerm (.object (typedColumn datatype)) =
      .ok (.mk {} datatype Term.columnName [.literal (.string "a")]) := by
  rw [loadTerm_eq]
  rfl

/-- The document of a comparison of a constant with a column of a known type. -/
def compared (datatype : Value) : Members :=
  expression (.string "boolean") "="
    [.object (one datatype), .object (typedColumn (.string "number"))]

theorem isDivided_compared (datatype : Value) : IsDivided (compared datatype) := by
  refine @IsDivided.apply _ _ [_, _] rfl rfl rfl (List.forall_mem_cons.mpr ⟨.constant rfl, ?_⟩)
  exact List.forall_mem_singleton.mpr (isDivided_typedColumn _)

theorem loadTerm_compared (datatype : Value) :
    loadTerm (.object (compared datatype)) =
      .ok (.mk {} (.string "boolean") (.string "=")
        [.nested (.mk {} datatype Expr.constantName [.literal (.int 1)]),
          .nested (.mk {} (.string "number") Term.columnName [.literal (.string "a")])]) := by
  apply Style.loadTerm_of_get? rfl rfl ?_ rfl rfl
  rw [if_neg (by decide), loadArguments, loadTerm_one, ok_bind, loadArguments, loadTerm_typedColumn,
    ok_bind, loadArguments, ok_bind]
  rfl

end Sample

/-- A column of a known type does not matter behind a type that is not supported. -/
theorem Sample.loadTerm_lowers_compared :
    IsDivided (compared (.string "interval")) ∧
      ∃ t, loadTerm (.object (compared (.string "interval"))) = .ok t ∧
        t.lower = .error (.unsupported "value expressions of datatype 'interval'") := by
  have divided := isDivided_compared (.string "interval")
  have loaded := loadTerm_compared (.string "interval")
  obtain ⟨failure, -⟩ := loadTerm_lowers rfl divided loaded
  exact ⟨divided, _, loaded, (failure _).mpr rfl⟩

/-- A column of a known type, and a constant whose type is a list, are loaded but not lowered. -/
theorem Sample.exists_lower_illTyped :
    (IsDivided (typedColumn (.string "number")) ∧
      ∃ t, loadTerm (.object (typedColumn (.string "number"))) = .ok t ∧ t.lower = noAttribute) ∧
    IsDivided (one (.list [])) ∧
      ∃ t, loadTerm (.object (one (.list []))) = .ok t ∧ t.lower = wrongType := by
  constructor
  · exact ⟨isDivided_typedColumn _, _, loadTerm_typedColumn _, rfl⟩
  · exact ⟨.constant rfl, _, loadTerm_one _, rfl⟩

end Document

end LogicalPlan
