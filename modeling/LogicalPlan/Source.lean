import LogicalPlan.Value.Text

/-!
# Source positions

Every node of a query remembers the part of the source text that it was read from. Offsets, lines
and columns come from the parser and are kept as it gave them.
-/

namespace LogicalPlan

/-- A point in a source text. -/
structure SourcePoint where
  offset : Value
  line : Value
  column : Value
  deriving DecidableEq, Inhabited

/-- A piece of source text with its end points. -/
structure SourceSpan where
  text : Value
  start : SourcePoint
  stop : SourcePoint
  deriving DecidableEq, Inhabited

namespace SourcePoint

/-- The point as `line:column`. -/
def display (p : SourcePoint) : String :=
  p.line.text ++ ":" ++ p.column.text

/-- The exported fields of a point. -/
def fields (p : SourcePoint) : Fields :=
  [("offset", p.offset), ("line", p.line), ("column", p.column)]

/-- The point as an exported value. -/
def toValue (p : SourcePoint) : Value :=
  .record "SourceLocation" (.shown p.display)
    ("SourceLocation(offset=" ++ p.offset.literal ++ ", line=" ++ p.line.literal ++ ", column="
      ++ p.column.literal ++ ")")
    [p.offset, p.line, p.column] (Members.ofFields p.fields)

/-- The point with all fields in normal form. -/
def normal (p : SourcePoint) : SourcePoint :=
  ⟨p.offset.normal, p.line.normal, p.column.normal⟩

end SourcePoint

namespace SourceSpan

/-- The span of a one-line text that starts the source. -/
def ofText (text : String) : SourceSpan where
  text := .string text
  start := ⟨.int 0, .int 1, .int 1⟩
  stop := ⟨.int text.length, .int 1, .int (1 + text.length)⟩

/-- The span as its two end points. -/
def display (s : SourceSpan) : String :=
  s.start.display ++ "-" ++ s.stop.display

/-- The exported fields of a span. -/
def fields (s : SourceSpan) : Fields :=
  [("text", s.text), ("start", s.start.toValue), ("end", s.stop.toValue)]

/-- The span as an exported value. -/
def toValue (s : SourceSpan) : Value :=
  .record "CodeInfo" (.shown s.display)
    ("CodeInfo(text=" ++ s.text.literal ++ ", start=" ++ s.start.toValue.literal ++ ", end="
      ++ s.stop.toValue.literal ++ ")")
    [s.text, s.start.toValue, s.stop.toValue] (Members.ofFields s.fields)

/-- The span with all fields in normal form. -/
def normal (s : SourceSpan) : SourceSpan :=
  ⟨s.text.normal, s.start.normal, s.stop.normal⟩

/-- A span that may be missing as an exported value. -/
def optionToValue (s : Option SourceSpan) : Value :=
  (s.map toValue).getD .null

end SourceSpan

/-- Where a part of a query comes from and whether it stood in parentheses. -/
structure Origin where
  span : Option SourceSpan := none
  parenthesized : Bool := false
  deriving DecidableEq, Inhabited

/-- The origin with its span in normal form. -/
def Origin.normal (o : Origin) : Origin :=
  ⟨o.span.map SourceSpan.normal, o.parenthesized⟩

end LogicalPlan
