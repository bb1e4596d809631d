/-
**Readers.**

A reader takes lexemes off the front of a row.  What it reads it gives back in the form in which it
is written again, so that its result is a row as well.  A reader that enters brackets reads their
content alone; lexemes that it leaves there are a problem, but only if no other one follows.

Main definitions:

* `SpanChain.Derive.Place`, `SpanChain.Derive.Reader` — what is left to read, and readers;
* `SpanChain.Derive.readMarks`, `SpanChain.Derive.readName` and their like — readers of lexemes;
* `SpanChain.Derive.within` — a reader of what brackets hold;
* `SpanChain.Derive.repeated`, `SpanChain.Derive.separated` — readers of rows of parts;
* `SpanChain.Derive.Reader.readAll` — the result for a whole row.
-/

import SpanChain.Derive.Problem

set_option relaxedAutoImplicit false
set_option autoImplicit false

namespace SpanChain.Derive

variable {α : Type}

/-- What is left to read. -/
structure Place where
  /-- The lexemes up to the end of the brackets that are being read. -/
  rest : Row
  /-- The first brackets in which lexemes were left. -/
  leftover : Option Bracket := none
  deriving DecidableEq, Repr

/-- A reader. -/
abbrev Reader (α : Type) := StateT Place (Except Problem) α

/-- The lexemes that are left. -/
def look : Reader Row := return (← get).rest

/-- Goes on behind some lexemes. -/
def advanceTo (rest : Row) : Reader Unit := modify fun p => { p with rest }

/-- The problem that none of what could have come is there. -/
def mismatch (expected : List Expected) : Reader α := do
  throw (.mismatch expected (← look).isEmpty)

/-! ### Lexemes -/

/-- Reads a mark, which may be the front of a longer one. -/
def readMarks (text : Token) : Reader Row := do
  let row ← look
  if row.startsWith text then
    advanceTo (row.drop text.length)
    return markRow text
  else throw (.mismatch [.token text] false)

/-- Reads a mark if it is there. -/
def readOptionalMarks (text : Token) : Reader Row := do
  if (← look).startsWith text then readMarks text else return []

/-- Reads the given word. -/
def readWord (text : Token) : Reader Row := do
  let row ← look
  if row.startsWithWord text then
    advanceTo (row.drop 1)
    return [.word text]
  else mismatch [.token text]

/-- Reads the given word if it is there. -/
def readOptionalWord (text : Token) : Reader Row := do
  if (← look).startsWithWord text then readWord text else return []

/-- Reads a name. -/
def readName : Reader Token := do
  match ← look with
  | .word text :: row =>
    if isName text then
      advanceTo row
      return text
    else throw (.keyword text)
  | _ => mismatch [.identifier]

/-- Reads a word of any kind. -/
def readAnyWord : Reader Token := do
  match ← look with
  | .word text :: row =>
    advanceTo row
    return text
  | _ => mismatch [.identifier]

/-- Reads a lifetime. -/
def readLifetime : Reader Row := do
  match ← look with
  | .lifetime text :: row =>
    advanceTo row
    return [.lifetime text]
  | _ => mismatch [.lifetime]

/-- Reads a lifetime if it is there. -/
def readOptionalLifetime : Reader Row := do
  if (← look).startsWithLifetime then readLifetime else return []

/-! ### Brackets -/

/-- Reads the content of brackets of the given kind. -/
def within (b : Bracket) (content : Reader α) : Reader α := do
  match (← look).group? with
  | some (c, inside, rest) =>
    if b = c then
      modify fun p => { p with rest := inside }
      let a ← content
      modify fun p =>
        { rest, leftover := p.leftover.or (if p.rest.isEmpty then none else some b) }
      return a
    else mismatch [.group b]
  | none => mismatch [.group b]

/-- Reads a row in brackets of the given kind. -/
def readGroup (b : Bracket) (content : Reader Row) : Reader Row := do
  return (← within b content).inBrackets b

/-- Reads brackets of any kind with whatever they hold. -/
def readAnyGroup : Reader (Bracket × Row) := do
  match (← look).group? with
  | some (b, inside, rest) =>
    advanceTo rest
    return (b, inside)
  | none => mismatch [.delimiter]

/-- The lexemes that a reader takes, as they are. -/
def verbatim (reader : Reader α) : Reader Row := do
  let row ← look
  let _ ← reader
  return row.take (row.length - (← look).length)

/-! ### Rows of parts -/

/-- The results of a reader that says after each part whether one more is to be read, for at most
`n` parts. -/
def repeatedUpTo (part : Reader (α × Bool)) : Nat → Reader (List α)
  | 0 => return []
  | n + 1 => do
    let (a, more) ← part
    if more then return a :: (← repeatedUpTo part n) else return [a]

/-- The results of a reader that says after each part whether one more is to be read. -/
def repeated (part : Reader (α × Bool)) : Reader (List α) := do
  repeatedUpTo part ((← look).length + 1)

/-- Reads parts with commas between them up to where `stop` holds; tells for each part whether a
comma follows. -/
def separated (stop : Row → Bool) (part : Reader α) : Reader (List (α × Bool)) := do
  if stop (← look) then return []
  repeated do
    let a ← part
    if stop (← look) then return ((a, false), false)
    let _ ← readMarks ","
    return ((a, true), !stop (← look))

/-- Reads parts with a plus between each two, as long as `more` holds behind the plus. -/
def summed (more : Row → Bool) (part : Reader α) : Reader (List (α × Row)) :=
  repeated do
    let a ← part
    if (← look).startsWith "+" then
      let plus ← readMarks "+"
      return ((a, plus), more (← look))
    else return ((a, []), false)

/-- The row of parts, each with its comma. -/
def withCommas (parts : List (Row × Bool)) : Row :=
  parts.flatMap fun (row, comma) => if comma then row ++ markRow "," else row

/-- The row of parts that were put in another order: a comma stands behind every part but the last,
which keeps its own. -/
def joinParts : List (Row × Bool) → Row
  | [] => []
  | [(row, comma)] => withCommas [(row, comma)]
  | (row, _) :: parts => row ++ markRow "," ++ joinParts parts

/-! ### Whole rows -/

/-- The result of a reader for a row of which nothing must be left. -/
def Reader.readAll (reader : Reader α) (row : Row) : Except Problem α := do
  let (a, p) ← reader.run { rest := row }
  match p.leftover with
  | some b => throw (.leftover b)
  | none => if p.rest.isEmpty then return a else throw .unexpectedToken

end SpanChain.Derive
