/-
**What types, bounds and expressions are read as.**

Types, bounds and expressions occur within each other.  The reader of each of them is therefore
written over a grammar that reads those one level further in.

Main definitions:

* `SpanChain.Derive.TypeRow`, `SpanChain.Derive.BoundRow` — what the readers of types and bounds
  give;
* `SpanChain.Derive.Grammar` — the readers one level further in;
* `SpanChain.Derive.readLiteral`, `SpanChain.Derive.readConstant` — values that stand for arguments.
-/

import SpanChain.Derive.Literal
import SpanChain.Derive.Reader

set_option relaxedAutoImplicit false
set_option autoImplicit false

namespace SpanChain.Derive

/-! ### Results -/

/-- What a type is, as far as what stands around it is concerned. -/
inductive TypeForm where
  /-- A path: its last name, whether it starts with a qualified type, and whether it is one name
  with at most arguments in angle brackets. -/
  | path (last : Token) (isQualified isName : Bool)
  /-- A single bound on a trait, without parentheses. -/
  | bound (bare : Row)
  | other
  deriving DecidableEq, Repr

/-- Whether a type is one name with at most arguments in angle brackets. -/
def TypeForm.isName : TypeForm → Bool
  | .path _ _ isName => isName
  | _ => false

/-- A type. -/
structure TypeRow where
  row : Row
  form : TypeForm := .other
  deriving DecidableEq, Repr

/-- A bound. -/
structure BoundRow where
  row : Row
  /-- Its lexemes without parentheses around it. -/
  bare : Row
  /-- Whether it names a trait; else it is a lifetime. -/
  isTrait : Bool
  deriving DecidableEq, Repr

/-- The readers of what stands one level further in. -/
structure Grammar where
  /-- Reads a type, which may be a sum of bounds or not. -/
  type (sums : Bool) : Reader TypeRow
  bound : Reader BoundRow
  expression : Reader Row

/-! ### Bounds -/

/-- Whether a row starts like a bound. -/
def Row.startsWithBound (row : Row) : Bool :=
  row.startsWithAnyWord || row.startsWith "::" || row.startsWith "?" || row.startsWithLifetime ||
    row.startsWithBracket .round

/-- The row of bounds, each with the plus behind it. -/
def boundSum (parts : List (BoundRow × Row)) : Row := parts.flatMap fun (b, plus) => b.row ++ plus

/-- Reads bounds with a plus between each two, as far as `stop` does not hold. -/
def readBoundsUpTo (g : Grammar) (stop : Row → Bool) : Reader Row := do
  if stop (← look) then return []
  return boundSum (← summed (!stop ·) g.bound)

/-! ### Values -/

/-- Whether a row starts with a literal, which may be a truth value or a negative number. -/
def Row.startsWithLiteral : Row → Bool
  | .literal _ :: _ => true
  | .word text :: _ => text == "true" || text == "false"
  | .mark '-' _ :: .literal text :: _ => Literal.isNumber text
  | _ => false

/-- Whether a row starts with a value that can be an argument. -/
def Row.startsWithValue (row : Row) : Bool :=
  row.startsWithLiteral || row.startsWithBracket .curly

/-- Reads a literal. -/
def readLiteral : Reader Row := do
  match ← look with
  | .mark '-' _ :: .literal text :: row =>
    advanceTo row
    return [.mark '-' false, .literal text]
  | l :: row =>
    advanceTo row
    return [l]
  | [] => return []

/-- Reads a value that can be an argument: a literal, a name, or an expression in braces, which is
kept as it is. -/
def readConstant (g : Grammar) : Reader Row := do
  let row ← look
  if row.startsWithLiteral then readLiteral
  else if row.startsWithName then return [.word (← readName)]
  else if row.startsWithBracket .curly then verbatim (within .curly g.expression)
  else throw (if row.isEmpty then .endOfInput else .unexpectedToken)

end SpanChain.Derive
