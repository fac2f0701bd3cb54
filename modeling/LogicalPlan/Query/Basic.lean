import LogicalPlan.Expr.Basic

/-!
# Parts that both query grammars share

Queries are the trees that a parser hands over. Both grammars share value expressions, column
references, computed columns, aggregate calls, sort entries and the raw qualifiers of joins.
Attributes keep whatever value the parser gave them.
-/

namespace LogicalPlan

namespace Query

mutual

/-- A value expression as it was parsed. -/
inductive Term where
  | mk (origin : Origin) (datatype func : Value) (args : List TermArgument)

/-- An argument of a parsed expression: a literal or a nested expression. -/
inductive TermArgument where
  | literal (v : Value)
  | nested (t : Term)

end

instance : Inhabited Term := ⟨.mk {} .null .null []⟩

namespace Term

mutual

/-- Structural equality of two parsed expressions. -/
def beq : Term → Term → Bool
  | .mk o t f args, .mk p u g args' => o == p && t == u && f == g && beqArguments args args'

/-- Structural equality of two parsed arguments. -/
def beqArgument : TermArgument → TermArgument → Bool
  | .literal v, .literal w => v == w
  | .nested t, .nested u => beq t u
  | _, _ => false

/-- Structural equality of two lists of parsed arguments. -/
def beqArguments : List TermArgument → List TermArgument → Bool
  | [], [] => true
  | a :: as, b :: bs => beqArgument a b && beqArguments as bs
  | _, _ => false

end

mutual

theorem beq_refl : ∀ t : Term, beq t t = true
  | .mk _ _ _ args => by simpa [beq] using beqArguments_refl args

theorem beqArgument_refl : ∀ a : TermArgument, beqArgument a a = true
  | .literal _ => by simp [beqArgument]
  | .nested t => by simpa [beqArgument] using beq_refl t

theorem beqArguments_refl : ∀ args : List TermArgument, beqArguments args args = true
  | [] => rfl
  | a :: as => by simp [beqArguments, beqArgument_refl a, beqArguments_refl as]

end

mutual

theorem eq_of_beq : ∀ {t u : Term}, beq t u = true → t = u
  | .mk _ _ _ _, .mk _ _ _ _, h => by
    simp only [beq, Bool.and_eq_true, beq_iff_eq] at h
    obtain ⟨⟨⟨rfl, rfl⟩, rfl⟩, h⟩ := h
    rw [eq_of_beqArguments h]

theorem eq_of_beqArgument : ∀ {a b : TermArgument}, beqArgument a b = true → a = b
  | .literal _, .literal _, h => by simp_all [beqArgument]
  | .nested _, .nested _, h => by
    simp only [beqArgument] at h
    rw [eq_of_beq h]
  | .literal _, .nested _, h => by simp [beqArgument] at h
  | .nested _, .literal _, h => by simp [beqArgument] at h

theorem eq_of_beqArguments :
    ∀ {as bs : List TermArgument}, beqArguments as bs = true → as = bs
  | [], [], _ => rfl
  | [], _ :: _, h => by simp [beqArguments] at h
  | _ :: _, [], h => by simp [beqArguments] at h
  | _ :: _, _ :: _, h => by
    simp only [beqArguments, Bool.and_eq_true] at h
    rw [eq_of_beqArgument h.1, eq_of_beqArguments h.2]

end

instance : DecidableEq Term := fun t u =>
  decidable_of_iff (beq t u = true) ⟨eq_of_beq, fun h => h ▸ beq_refl t⟩

/-- Where the expression comes from. -/
def origin : Term → Origin
  | .mk origin _ _ _ => origin

/-- The result type of the expression. -/
def datatype : Term → Value
  | .mk _ datatype _ _ => datatype

/-- The function of the expression. -/
def func : Term → Value
  | .mk _ _ func _ => func

/-- The arguments of the expression. -/
def args : Term → List TermArgument
  | .mk _ _ _ args => args

/-- The function that references a column by name and alias. -/
def columnName : Value := .string "columnValue"

/-- The arguments of the function are literals. -/
def takesLiterals (func : Value) : Bool :=
  func == Expr.constantName || func == columnName

end Term

/-- A column reference in a query. -/
structure ColumnRef where
  origin : Origin
  name : Value
  relAlias : Value
  deriving DecidableEq, Inhabited

/-- An expression whose result gets a name. -/
structure ComputedColumn where
  origin : Origin
  name : Value
  relAlias : Value
  child : Term
  deriving DecidableEq, Inhabited

/-- A call of an aggregate function with the name of its result. -/
structure AggregateCall where
  origin : Origin
  function : Value
  column : Option ColumnRef
  name : Value
  deriving DecidableEq, Inhabited

/-- An entry of an ordering. -/
structure OrderEntry where
  origin : Origin
  column : Option ColumnRef
  ascending : Bool
  deriving DecidableEq, Inhabited

/-- What a query says about the condition of a join. -/
inductive JoinQualifier where
  | absent
  | columns (names : List Value)
  | condition (t : Term)
  deriving DecidableEq, Inhabited

end Query

end LogicalPlan
