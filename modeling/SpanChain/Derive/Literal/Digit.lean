/-
**Digits.**

Main definitions:

* `SpanChain.Derive.Literal.hexValue?`, `SpanChain.Derive.Literal.hexNumber` — the values of digits
  of base sixteen, of which those of smaller bases are a part.
-/

set_option relaxedAutoImplicit false
set_option autoImplicit false

namespace SpanChain.Derive.Literal

/-- The value of a digit of base sixteen. -/
def hexValue? (c : Char) : Option Nat :=
  if c.isDigit then some (c.toNat - 48)
  else if 'a' ≤ c ∧ c ≤ 'f' then some (c.toNat - 87)
  else if 'A' ≤ c ∧ c ≤ 'F' then some (c.toNat - 55)
  else none

/-- Whether a character is a digit of base sixteen. -/
def isHex (c : Char) : Bool := (hexValue? c).isSome

/-- The value of a row of digits of base sixteen, in which all else is skipped. -/
def hexNumber (cs : List Char) : Nat :=
  (cs.filterMap hexValue?).foldl (fun k d => 16 * k + d) 0

/-- Whether a character is a digit of base ten or a low line. -/
def isDigitOrLow (c : Char) : Bool := c.isDigit || c == '_'

/-- Whether a character is a digit of base sixteen or a low line. -/
def isHexOrLow (c : Char) : Bool := isHex c || c == '_'

end SpanChain.Derive.Literal
