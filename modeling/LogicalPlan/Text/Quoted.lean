import LogicalPlan.Text.Invisible

/-!
# Quoted literals

A string literal stands in single quotes, or in double quotes if it contains a single quote and no
double quote. The quote, the backslash and characters without a glyph are escaped; all other
characters stand for themselves.
-/

namespace LogicalPlan

namespace Quoted

/-- The hexadecimal digit of a number below sixteen. -/
def hexDigit (n : Nat) : Char :=
  if n < 10 then Char.ofNat (48 + n) else Char.ofNat (87 + n)

/-- Two hexadecimal digits. -/
def hexPair (n : Nat) : List Char :=
  [hexDigit (n / 16 % 16), hexDigit (n % 16)]

/-- The single quote. -/
def singleQuote : Char := '\x27'

/-- The double quote. -/
def doubleQuote : Char := '\x22'

/-- The escape of a code point by its hexadecimal digits: two, four or eight of them. -/
def hexEscape (n : Nat) : List Char :=
  if n < 0x100 then '\\' :: 'x' :: hexPair n
  else if n < 0x10000 then '\\' :: 'u' :: hexPair (n / 0x100) ++ hexPair n
  else '\\' :: 'U' :: hexPair (n / 0x1000000) ++ hexPair (n / 0x10000) ++ hexPair (n / 0x100)
    ++ hexPair n

/-- The character as it is written between the given quotes. -/
def escape (quote c : Char) : List Char :=
  if c = '\\' then ['\\', '\\']
  else if c = quote then ['\\', c]
  else if c = '\n' then ['\\', 'n']
  else if c = '\r' then ['\\', 'r']
  else if c = '\t' then ['\\', 't']
  else if isInvisible c then hexEscape c.toNat
  else [c]

/-- The quote that encloses a text. -/
def quoteFor (cs : List Char) : Char :=
  if cs.contains singleQuote && !cs.contains doubleQuote then doubleQuote else singleQuote

/-- The characters between their quotes. -/
def encode (cs : List Char) : List Char :=
  let quote := quoteFor cs
  quote :: cs.flatMap (escape quote) ++ [quote]

end Quoted

/-- The literal that denotes a text. -/
def quotedLiteral (s : String) : String :=
  String.ofList (Quoted.encode s.toList)

/-- The literal that denotes a string of octets: octets outside printable ASCII are escaped. -/
def octetLiteral (octets : List UInt8) : String :=
  let cs := octets.map fun o => Char.ofNat o.toNat
  let quote := Quoted.quoteFor cs
  let escape := fun c =>
    if 127 ≤ c.toNat then Quoted.hexEscape c.toNat else Quoted.escape quote c
  String.ofList ('b' :: quote :: cs.flatMap escape ++ [quote])

end LogicalPlan
