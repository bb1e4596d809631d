/-
**Expressions.**

An expression is made of literals, paths, calls, fields, elements, records, casts and operations.
Blocks are kept as they are when they hold one expression.  Operations that bind more tightly are
read first; comparisons do not stand side by side.

Main definitions:

* `SpanChain.Derive.operators`, `SpanChain.Derive.Strength` — operators and how tightly they bind;
* `SpanChain.Derive.readExpression` — expressions.
-/

import SpanChain.Derive.Grammar.Path
import SpanChain.Derive.Grammar.Attribute

set_option relaxedAutoImplicit false
set_option autoImplicit false

namespace SpanChain.Derive

/-! ### Operators -/

/-- How tightly an operator binds, as a number. -/
abbrev Strength := Nat

namespace Strength

/-- Where no operator follows. -/
def none : Strength := 0

/-- Operators that set a value. -/
def assignment : Strength := 1

/-- Two dots. -/
def range : Strength := 2

/-- Comparisons. -/
def comparison : Strength := 5

/-- Casts. -/
def cast : Strength := 12

end Strength

/-- The operators with two operands; longer ones stand in front of those that they start with. -/
def operators : List (Token × Strength) :=
  [("+=", 1), ("-=", 1), ("*=", 1), ("/=", 1), ("%=", 1), ("^=", 1), ("&=", 1), ("|=", 1),
    ("<<=", 1), (">>=", 1), ("&&", 4), ("||", 3), ("<<", 9), (">>", 9), ("==", 5), ("<=", 5),
    ("!=", 5), (">=", 5), ("+", 10), ("-", 10), ("*", 11), ("/", 11), ("%", 11), ("^", 7), ("&", 8),
    ("|", 6), ("<", 5), (">", 5)]

/-- The operator at the front of a row. -/
def Row.operator? (row : Row) : Option (Token × Strength) :=
  operators.find? fun (text, _) => row.startsWith text

/-- How tightly what is at the front of a row binds, if it goes on with an expression. -/
def Row.strength (row : Row) : Strength :=
  match row.operator? with
  | some (_, strength) => strength
  | none =>
    if row.startsWith "=" && !row.startsWith "=>" then .assignment
    else if row.startsWith ".." then .range
    else if row.startsWithWord "as" then .cast
    else .none

/-! ### Atoms -/

/-- Reads the name or the number of a field; tells whether it is a name. -/
def readMember : Reader (Row × Bool) := do
  match ← look with
  | .literal text :: row =>
    if !Literal.isNumber text then mismatch [.member]
    if !text.toList.all Char.isDigit then mismatch [.index]
    advanceTo row
    return ([.literal text], false)
  | row => if row.startsWithName then return ([.word (← readName)], true) else mismatch [.member]

/-- Reads a field of a record and its value, which may be left out for a variable of that name. -/
def readFieldValue (g : Grammar) : Reader Row := do
  let attributes := attributeRow (← readAttributes g)
  let (member, isName) ← readMember
  if isName && !(← look).startsWith ":" then return attributes ++ member
  let colon ← readMarks ":"
  return attributes ++ member ++ colon ++ (← g.expression)

/-- Reads the fields of a record; two dots and a record for the other fields may end them. -/
def readRecord (g : Grammar) : Reader Row := do
  let fields ← separated (fun row => row.isEmpty || row.startsWith "..") (readFieldValue g)
  let dots ← readOptionalMarks ".."
  let base ← if dots.isEmpty || (← look).isEmpty then pure [] else g.expression
  return withCommas fields ++ dots ++ base

/-- Reads an expression that starts with a path: a macro call, a record or the path itself. -/
def readPathExpression (g : Grammar) : Reader Row := do
  let p ← readQualifiedPath g .expression
  let row ← look
  if !p.isQualified && row.startsWith "!" && !row.startsWith "!=" && p.isPlain then
    let bang ← readMarks "!"
    let (b, inside) ← readAnyGroup
    return p.row ++ bang ++ inside.inBrackets b
  if row.startsWithBracket .curly then return p.row ++ (← readGroup .curly (readRecord g))
  return p.row

/-- Reads a block that holds one expression. -/
def readBlock (g : Grammar) : Reader Row := do
  match (← look).group? with
  | some (.curly, inside, rest) =>
    match g.expression.run { rest := inside } with
    | .ok (_, p) =>
      if !p.rest.isEmpty then throw .unsupportedExpression
      modify fun q => { rest, leftover := q.leftover.or p.leftover }
      return inside.inBrackets .curly
    | .error _ => throw .unsupportedExpression
  | _ => throw .unsupportedExpression

/-- Reads an expression without operators and without what may stand behind it. -/
def readAtom (g : Grammar) : Reader Row := do
  let row ← look
  if row.startsWithLiteral then readLiteral
  else if row.startsWithBracket .round then
    readGroup .round do return withCommas (← separated List.isEmpty g.expression)
  else if row.startsWithSegment || row.startsWith "::" || row.startsWith "<" then
    readPathExpression g
  else if row.isEmpty then mismatch [.expression]
  else readBlock g

/-! ### Calls, fields and elements -/

/-- Reads expressions with commas between them in parentheses. -/
def readOperands (g : Grammar) : Reader Row :=
  readGroup .round do return withCommas (← separated List.isEmpty g.expression)

/-- The parts of a number with points in it. -/
def pointParts (text : Token) : Row :=
  (text.splitOn ".").filter (!·.isEmpty) |>.map Lexeme.literal |>.intersperse (.mark '.' false)

/-- Reads the field, the call or the element behind an expression from its point on. -/
def readSelection (g : Grammar) : Reader Row := do
  let point ← readMarks "."
  let (numbers, isComplete) ← readNumbers
  if isComplete then return point ++ numbers
  let (member, isName) ← readMember
  let colons ← if isName then readOptionalMarks "::" else pure []
  let arguments ← if colons.isEmpty then pure [] else Prod.fst <$> readAngled g
  let selected := point ++ numbers ++ member ++ colons ++ arguments
  if isName && (!colons.isEmpty || (← look).startsWithBracket .round) then
    return selected ++ (← readOperands g)
  return selected
where
  /-- Reads the numbers of fields that are written as one number with points in it; tells whether
  the last point has a number behind it. -/
  readNumbers : Reader (Row × Bool) := do
    match ← look with
    | .literal text :: row =>
      if !Literal.isNumber text || !text.toList.contains '.' then return ([], false)
      if !text.toList.all (fun c => c.isDigit || c == '.') then mismatch [.index]
      advanceTo row
      if text.endsWith "." then return (pointParts text ++ markRow ".", false)
      return (pointParts text, true)
    | _ => return ([], false)

/-- Reads what stands directly behind an expression; tells whether there is anything. -/
def readTrailer (g : Grammar) : Reader (Row × Bool) := do
  let row ← look
  if row.startsWithBracket .round then return (← readOperands g, true)
  if row.startsWith "." && !row.startsWith ".." && !Row.startsWithWord (row.drop 1) "await" then
    return (← readSelection g, true)
  if row.startsWithBracket .square then return (← readGroup .square g.expression, true)
  return ([], false)

/-- Reads an expression without operators. -/
def readPrimary (g : Grammar) : Reader Row := do
  let atom ← readAtom g
  return atom ++ (← repeated (readTrailer g)).flatten

/-! ### Operations -/

/-- Reads the operators in front of an expression. -/
def readSigns : Reader Row := do
  let isSign (row : Row) : Bool := ["&", "*", "!", "-"].any row.startsWith
  if !isSign (← look) then return []
  let rows ← repeated do
    if (← look).startsWith "&" then
      let ampersand ← readMarks "&"
      let mutable ← readOptionalWord "mut"
      return (ampersand ++ mutable, isSign (← look))
    match ← look with
    | .mark c _ :: row =>
      advanceTo row
      return ([.mark c false], isSign row)
    | _ => return ([], false)
  return rows.flatten

/-- Reads an expression with no operators but those in front of it. -/
def readOperand (g : Grammar) : Reader Row := do
  let signs ← readSigns
  return signs ++ (← readPrimary g)

/-- Checks that nothing stands behind a cast that would belong to its type. -/
def checkCast : Reader Unit := do
  let row ← look
  let second : Row := row.drop 1
  let third : Row := row.drop 2
  if row.startsWith "." && !row.startsWith ".." then
    if second.startsWithWord "await" then throw (.behindCast "`.await`")
    if second.startsWithName && (third.startsWithBracket .round || third.startsWith "::") then
      throw (.behindCast "a method call")
    throw (.behindCast "a field access")
  if row.startsWith "?" then throw (.behindCast "`?`")
  if row.startsWithBracket .square then throw (.behindCast "indexing")
  if row.startsWithBracket .round then throw (.behindCast "a function call")

mutual

/-- Reads the operations behind an expression that bind at least as tightly as `base`, at most `n`
of them at any place.  Tells whether the whole is a comparison, as the expression is or not. -/
def readOperations (g : Grammar) : Nat → Bool → Strength → Reader (Row × Bool)
  | 0, isComparison, _ => return ([], isComparison)
  | n + 1, isComparison, base => do
    let row ← look
    match row.operator? with
    | some (text, strength) =>
      if strength < base then return ([], isComparison)
      if strength = .comparison ∧ isComparison then throw .chainedComparison
      let operator ← readMarks text
      let operand ← readOperand g
      let right ← readTighter g n false strength
      let (rest, whole) ← readOperations g n (strength = .comparison) base
      return (operator ++ operand ++ right ++ rest, whole)
    | none =>
      if base ≤ .cast && row.startsWithWord "as" then
        let word ← readWord "as"
        let t ← g.type false
        checkCast
        let (rest, whole) ← readOperations g n false base
        return (word ++ t.row ++ rest, whole)
      return ([], isComparison)

/-- Reads the operations behind the right operand of an operator that bind more tightly than it. -/
def readTighter (g : Grammar) : Nat → Bool → Strength → Reader Row
  | 0, _, _ => return []
  | n + 1, isComparison, strength => do
    let row ← look
    let next := row.strength
    if strength < next ∨ next = strength ∧ strength = .assignment then
      let (operations, whole) ← readOperations g n isComparison next
      if operations.isEmpty then return []
      return operations ++ (← readTighter g n whole strength)
    return []

end

/-- Reads an expression. -/
def readExpression (g : Grammar) : Reader Row := do
  let operand ← readOperand g
  let (operations, _) ← readOperations g (2 * (← look).length + 2) false .none
  return operand ++ operations

end SpanChain.Derive
