import LogicalPlan.Expr.Basic

/-!
# Texts and exports of expressions

Expressions are shown in a compact notation such as `R.a + 1 > 42`: known operators stand between
their two operands, all other functions in front of their arguments. Parentheses appear exactly
where they were written.
-/

namespace LogicalPlan

namespace Expr

/-- The functions that are written between their operands. -/
def infixOperators : List String :=
  ["=", "!=", "<>", "<", "<=", ">", ">=", "+", "-", "*", "/", "%", "||", "and", "or", "xor", "like",
    "ilike"]

/-- The function is written between its operands. -/
def isInfix : Value → Bool
  | .string f => infixOperators.contains f
  | _ => false

/-- A literal as it appears in an expression; quotes inside a text are doubled. -/
def literalText : Value → String
  | .null => "null"
  | .bool b => if b then "true" else "false"
  | .string s =>
    "'" ++ String.ofList (s.toList.flatMap fun c =>
      if c = Quoted.singleQuote then [c, c] else [c]) ++ "'"
  | v => v.text

/-- A text in the parentheses that the expression was written with. -/
def parenthesize (origin : Origin) (body : String) : String :=
  if origin.parenthesized then "(" ++ body ++ ")" else body

mutual

/-- The text of an expression. Operators need nested expressions as operands. -/
def text : Expr → Outcome String
  | .column origin c => .ok (parenthesize origin c.text)
  | .apply origin _ func args =>
    if func = constantName then do
      let texts ← argumentTexts args
      .ok (parenthesize origin (joinTexts ", " texts))
    else if !func.isHashable then wrongType
    else if isInfix func && args.length == 2 then do
      let texts ← operandTexts args
      .ok (parenthesize origin (joinTexts (" " ++ func.text ++ " ") texts))
    else if func = .string "not" ∧ args.length = 1 then do
      let texts ← operandTexts args
      .ok (parenthesize origin ("not " ++ joinTexts "" texts))
    else do
      let texts ← argumentTexts args
      .ok (parenthesize origin (func.text ++ "(" ++ joinTexts ", " texts ++ ")"))

/-- The text of an argument. -/
def argumentText : Argument → Outcome String
  | .literal v => .ok (literalText v)
  | .nested e => text e

/-- The texts of arguments. -/
def argumentTexts : List Argument → Outcome (List String)
  | [] => .ok []
  | a :: as => do
    let first ← argumentText a
    let others ← argumentTexts as
    .ok (first :: others)

/-- The text of an operand, which cannot be a literal. -/
def operandText : Argument → Outcome String
  | .literal _ => noAttribute
  | .nested e => text e

/-- The texts of operands. -/
def operandTexts : List Argument → Outcome (List String)
  | [] => .ok []
  | a :: as => do
    let first ← operandText a
    let others ← operandTexts as
    .ok (first :: others)

end

mutual

/-- The literal form of an expression. -/
def literal : Expr → String
  | .column _ c => "ValueExprColumnValue(" ++ c.literal ++ ")"
  | .apply _ datatype func args =>
    "ValueExprGeneric(" ++ datatype.literal ++ ", " ++ func.literal ++ ", ["
      ++ joinTexts ", " (argumentLiterals args) ++ "])"

/-- The literal form of an argument. -/
def argumentLiteral : Argument → String
  | .literal v => v.literal
  | .nested e => literal e

/-- The literal forms of arguments. -/
def argumentLiterals : List Argument → List String
  | [] => []
  | a :: as => argumentLiteral a :: argumentLiterals as

end

mutual

/-- The exported fields of an expression. -/
def fields : Expr → Fields
  | .column origin c =>
    [("type", .string "columnValue"), ("column", c.toValue),
      ("codeInfo", SourceSpan.optionToValue origin.span),
      ("wrappedInParentheses", .bool origin.parenthesized)]
  | .apply origin datatype func args =>
    [("type", .string "generic"), ("datatype", datatype), ("func", func),
      ("args", .list (argumentValues args)), ("codeInfo", SourceSpan.optionToValue origin.span),
      ("wrappedInParentheses", .bool origin.parenthesized)]

/-- The argument as an exported value. -/
def argumentValue : Argument → Value
  | .literal v => v
  | .nested e => .ofFields (fields e)

/-- The arguments as exported values. -/
def argumentValues : List Argument → List Value
  | [] => []
  | a :: as => argumentValue a :: argumentValues as

end

/-- The expression as an exported value. -/
def toValue (e : Expr) : Value :=
  .ofFields e.fields

/-- The expression as a value that keeps its texts. -/
def toRecord (e : Expr) : Value :=
  let text := match e.text with
    | .ok s => ObjectText.shown s
    | .error (.illTyped cause) => .failed cause
    | .error _ => .failed .wrongType
  .record "ValueExpr" text e.literal e.keyParts (Members.ofFields e.fields)

end Expr

end LogicalPlan
