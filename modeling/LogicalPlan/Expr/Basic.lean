import LogicalPlan.Column

/-!
# Value expressions

An expression references a column of the current tuple or applies a function to arguments. The
function `constant` denotes its literal arguments; all other functions receive nested expressions.
-/

namespace LogicalPlan

mutual

/-- A value expression. -/
inductive Expr where
  /-- The value of a column of the current tuple. -/
  | column (origin : Origin) (ref : Column)
  /-- The result of a function. -/
  | apply (origin : Origin) (datatype func : Value) (args : List Argument)

/-- An argument of a function: a literal or a nested expression. -/
inductive Argument where
  | literal (v : Value)
  | nested (e : Expr)

end

instance : Inhabited Expr := ⟨.apply {} .null .null []⟩

namespace Expr

mutual

/-- Structural equality of two expressions. -/
def beq : Expr → Expr → Bool
  | .column o c, .column p d => o == p && c == d
  | .apply o t f args, .apply p u g args' => o == p && t == u && f == g && beqArguments args args'
  | _, _ => false

/-- Structural equality of two arguments. -/
def beqArgument : Argument → Argument → Bool
  | .literal v, .literal w => v == w
  | .nested e, .nested f => beq e f
  | _, _ => false

/-- Structural equality of two argument lists. -/
def beqArguments : List Argument → List Argument → Bool
  | [], [] => true
  | a :: as, b :: bs => beqArgument a b && beqArguments as bs
  | _, _ => false

end

mutual

theorem beq_refl : ∀ e : Expr, beq e e = true
  | .column _ _ => by simp [beq]
  | .apply _ _ _ args => by simpa [beq] using beqArguments_refl args

theorem beqArgument_refl : ∀ a : Argument, beqArgument a a = true
  | .literal _ => by simp [beqArgument]
  | .nested e => by simpa [beqArgument] using beq_refl e

theorem beqArguments_refl : ∀ args : List Argument, beqArguments args args = true
  | [] => rfl
  | a :: as => by simp [beqArguments, beqArgument_refl a, beqArguments_refl as]

end

mutual

theorem eq_of_beq : ∀ {e f : Expr}, beq e f = true → e = f
  | .column _ _, .column _ _, h => by simp_all [beq]
  | .apply _ _ _ _, .apply _ _ _ _, h => by
    simp only [beq, Bool.and_eq_true, beq_iff_eq] at h
    obtain ⟨⟨⟨rfl, rfl⟩, rfl⟩, h⟩ := h
    rw [eq_of_beqArguments h]
  | .column _ _, .apply _ _ _ _, h => by simp [beq] at h
  | .apply _ _ _ _, .column _ _, h => by simp [beq] at h

theorem eq_of_beqArgument : ∀ {a b : Argument}, beqArgument a b = true → a = b
  | .literal _, .literal _, h => by simp_all [beqArgument]
  | .nested _, .nested _, h => by
    simp only [beqArgument] at h
    rw [eq_of_beq h]
  | .literal _, .nested _, h => by simp [beqArgument] at h
  | .nested _, .literal _, h => by simp [beqArgument] at h

theorem eq_of_beqArguments : ∀ {as bs : List Argument}, beqArguments as bs = true → as = bs
  | [], [], _ => rfl
  | [], _ :: _, h => by simp [beqArguments] at h
  | _ :: _, [], h => by simp [beqArguments] at h
  | _ :: _, _ :: _, h => by
    simp only [beqArguments, Bool.and_eq_true] at h
    rw [eq_of_beqArgument h.1, eq_of_beqArguments h.2]

end

instance : DecidableEq Expr := fun e f =>
  decidable_of_iff (beq e f = true) ⟨eq_of_beq, fun h => h ▸ beq_refl e⟩

/-- Where the expression comes from. -/
def origin : Expr → Origin
  | .column origin _ => origin
  | .apply origin _ _ _ => origin

/-- The position of the expression. -/
def span (e : Expr) : Option SourceSpan :=
  e.origin.span

/-- The result type; it is unknown for column references. -/
def datatype : Expr → Value
  | .column _ _ => .string "null"
  | .apply _ datatype _ _ => datatype

/-- The function that computes the expression. -/
def func : Expr → Value
  | .column _ _ => .string "columnValue"
  | .apply _ _ func _ => func

/-- The function whose arguments are literals. -/
def constantName : Value := .string "constant"

/-- The expression denotes literals. -/
def isConstant (e : Expr) : Bool :=
  e.func == constantName

/-- The expressions among arguments. -/
def nestedOf (args : List Argument) : List Expr :=
  args.filterMap fun
    | .literal _ => none
    | .nested e => some e

/-- The expressions that are directly nested in an expression. -/
def children : Expr → List Expr
  | .column _ _ => []
  | .apply _ _ func args => if func = constantName then [] else nestedOf args

mutual

/-- The expression and all nested ones in preorder. -/
def walk : Expr → List Expr
  | .column o c => [.column o c]
  | .apply o t f args =>
    .apply o t f args :: (if f = constantName then [] else walkArguments args)

/-- The expressions in an argument in preorder. -/
def walkArgument : Argument → List Expr
  | .literal _ => []
  | .nested e => walk e

/-- The expressions in arguments in preorder. -/
def walkArguments : List Argument → List Expr
  | [] => []
  | a :: as => walkArgument a ++ walkArguments as

end

/-- The column that the expression references, if it is a column reference. -/
def column? : Expr → Option Column
  | .column _ c => some c
  | .apply _ _ _ _ => none

/-- The columns without repetitions, in the order of their first occurrence. -/
def distinctColumns (columns : List Column) : List Column :=
  columns.foldl (fun seen c => if seen.any (·.same c) then seen else seen ++ [c]) []

/-- All columns that are referenced anywhere in the expression. -/
def columns (e : Expr) : List Column :=
  distinctColumns (e.walk.filterMap column?)

mutual

/-- The expression with all values in normal form. -/
def normal : Expr → Expr
  | .column o c => .column o.normal c.normal
  | .apply o t f args => .apply o.normal t.normal f.normal (normalArguments args)

/-- The argument with all values in normal form. -/
def normalArgument : Argument → Argument
  | .literal v => .literal v.normal
  | .nested e => .nested (normal e)

/-- The arguments with all values in normal form. -/
def normalArguments : List Argument → List Argument
  | [] => []
  | a :: as => normalArgument a :: normalArguments as

end

/-- Two expressions count as the same expression. -/
def same (e f : Expr) : Bool :=
  decide (e.normal = f.normal)

/-- What stands for an expression in a key: the parts of the column for a column reference,
otherwise type, function and number of arguments. -/
def keyParts : Expr → List Value
  | .column _ c => c.keyParts
  | .apply _ t f args => [t, f, .int args.length]

/-- What tells expressions apart when they are used as keys. -/
def signature (e : Expr) : Value :=
  .tuple e.keyParts

end Expr

end LogicalPlan
