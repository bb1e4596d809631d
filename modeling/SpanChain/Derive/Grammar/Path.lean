/-
**Paths.**

A path is a row of names with a double colon between each two and possibly one in front.  A name may
have arguments in angle brackets; those of the last name may stand in parentheses where a path is
that of a trait.  A path that starts from a qualified type names something that belongs to that
type.

Main definitions:

* `SpanChain.Derive.Segment`, `SpanChain.Derive.PathRow` — names with arguments, and paths;
* `SpanChain.Derive.readPath`, `SpanChain.Derive.readQualifiedPath`,
  `SpanChain.Derive.readTraitPath` — paths, those that may be qualified, and those of traits;
* `SpanChain.Derive.readPlainPath` — paths of words without arguments.

In expressions the angle brackets of arguments have a double colon in front, as they would be read
as comparisons without it.
-/

import SpanChain.Derive.Grammar.Basic

set_option relaxedAutoImplicit false
set_option autoImplicit false

namespace SpanChain.Derive

/-! ### Names and arguments -/

/-- Where a path stands. -/
inductive PathStyle where
  /-- In a type or on its own. -/
  | type
  | expression
  deriving DecidableEq, Repr

/-- A name with its arguments. -/
structure Segment where
  name : Token
  /-- The arguments with the brackets around them, if there are brackets. -/
  arguments : Option Row := none
  /-- Whether there are no arguments, with brackets or without. -/
  isBare : Bool := true
  deriving DecidableEq, Repr

/-- The row of a name with its arguments. -/
def Segment.row (s : Segment) : Row := .word s.name :: s.arguments.getD []

/-- The words that a path can start from; they have no arguments. -/
def anchors : List Token := ["crate", "self", "super"]

/-- Whether a row starts like a path of a type that has no double colon in front. -/
def Row.startsWithSegment : Row → Bool
  | .word text :: _ => isName text || anchors.contains text || text == "Self"
  | _ => false

/-- Reads an argument: a lifetime, a value, a type, or a name that is set to a value or a type or
has bounds.  Tells whether it is a lifetime. -/
def readArgument (g : Grammar) : Reader (Row × Bool) := do
  let row ← look
  if row.startsWithLifetime && !Row.startsWith (row.drop 1) "+" then
    return (← readLifetime, true)
  if row.startsWithValue then return (← readConstant g, false)
  let t ← g.type true
  if !t.form.isName then return (t.row, false)
  if (← look).startsWith "=" then
    let equals ← readMarks "="
    if (← look).startsWithValue then return (t.row ++ equals ++ (← readConstant g), false)
    return (t.row ++ equals ++ (← g.type true).row, false)
  if (← look).startsWith ":" then
    let colon ← readMarks ":"
    let bounds ← readBoundsUpTo g fun row => row.startsWith "," || row.startsWith ">"
    return (t.row ++ colon ++ bounds, false)
  return (t.row, false)

/-- Reads arguments in angle brackets; lifetimes are written first.  Tells whether there are
none. -/
def readAngled (g : Grammar) : Reader (Row × Bool) := do
  let opening ← readMarks "<"
  let parts ← separated (·.startsWith ">") (readArgument g)
  let closing ← readMarks ">"
  let (lifetimes, others) := parts.partition fun ((_, isLifetime), _) => isLifetime
  let row := joinParts ((lifetimes ++ others).map fun ((row, _), comma) => (row, comma))
  return (opening ++ row ++ closing, parts.isEmpty)

/-- Whether arguments in angle brackets are at the front of a row. -/
def Row.startsWithAngled (style : PathStyle) (row : Row) : Bool :=
  style == .type && row.startsWith "<" && !row.startsWith "<=" && !row.startsWith "<<=" ||
    row.startsWith "::" && Row.startsWith (row.drop 2) "<"

/-- Reads a name with its arguments. -/
def readSegment (g : Grammar) (style : PathStyle) : Reader Segment := do
  let row ← look
  if anchors.any row.startsWithWord then return { name := ← readAnyWord }
  let name ← if row.startsWithWord "Self" then readAnyWord else readName
  if (← look).startsWithAngled style then
    let colons ← readOptionalMarks "::"
    let (row, isBare) ← readAngled g
    return ⟨name, some (colons ++ row), isBare⟩
  return { name }

/-! ### Paths -/

/-- A path. -/
structure PathRow where
  /-- All that stands in front of the last name. -/
  front : Row
  last : Segment
  /-- Whether the path starts with a qualified type. -/
  isQualified : Bool := false
  /-- Whether the path is one name, with nothing in front. -/
  isSingle : Bool
  /-- Whether no name has arguments. -/
  isPlain : Bool
  deriving DecidableEq, Repr

/-- The row of a path. -/
def PathRow.row (p : PathRow) : Row := p.front ++ p.last.row

/-- The path of some names behind what stands in front of them. -/
def PathRow.ofSegments (front : Row) (segments : List Segment) : PathRow where
  front := front ++ segments.dropLast.flatMap fun s => s.row ++ markRow "::"
  last := segments.getLast?.getD { name := "" }
  isSingle := front.isEmpty && segments.length == 1
  isPlain := segments.all fun s => s.arguments.isNone

/-- Reads names with double colons between them, as long as `more` holds in front of a double
colon. -/
def readSegments (g : Grammar) (style : PathStyle) (more : Row → Bool) : Reader (List Segment) :=
  repeated do
    let s ← readSegment g style
    let row ← look
    if row.startsWith "::" && more row then
      let _ ← readMarks "::"
      return (s, true)
    return (s, false)

/-- Whether parentheses follow the double colon at the front of a row. -/
def Row.parenthesesBehind (row : Row) : Bool := Row.startsWithBracket (row.drop 2) .round

/-- Reads a path.  A double colon in front of parentheses does not belong to it. -/
def readPath (g : Grammar) (style : PathStyle) : Reader PathRow := do
  let front ← readOptionalMarks "::"
  return .ofSegments front (← readSegments g style (!·.parenthesesBehind))

/-- Reads a path that may start with a qualified type in angle brackets. -/
def readQualifiedPath (g : Grammar) (style : PathStyle) : Reader PathRow := do
  if !(← look).startsWith "<" then return ← readPath g style
  let opening ← readMarks "<"
  let type ← g.type true
  let asWord ← readOptionalWord "as"
  let trait ← if asWord.isEmpty then pure [] else PathRow.row <$> readPath g .type
  let closing ← readMarks ">"
  let colons ← readMarks "::"
  let front := opening ++ type.row ++ asWord ++ trait ++ closing ++ colons
  let segments ← readSegments g style fun _ => true
  return { PathRow.ofSegments front segments with isQualified := true }

/-- Reads the type behind an arrow, if there is an arrow. -/
def readReturn (g : Grammar) : Reader Row := do
  if (← look).startsWith "->" then
    let arrow ← readMarks "->"
    return arrow ++ (← g.type false).row
  return []

/-- Reads arguments in parentheses and the type that they are mapped to. -/
def readParenthesized (g : Grammar) : Reader Row := do
  let inputs ← readGroup .round do
    return withCommas (← separated List.isEmpty (TypeRow.row <$> g.type true))
  return inputs ++ (← readReturn g)

/-- Reads the path of a trait.  Arguments in parentheses may follow it if its last name has no
others; a double colon in front of them is dropped, and so are empty angle brackets. -/
def readTraitPath (g : Grammar) : Reader Row := do
  let p ← readPath g .type
  let row ← look
  if p.last.isBare &&
      (row.startsWithBracket .round || row.startsWith "::" && row.parenthesesBehind) then
    let _ ← readOptionalMarks "::"
    return p.front ++ .word p.last.name :: (← readParenthesized g)
  return p.row

/-- Reads a path of words of any kind without arguments. -/
def readPlainPath : Reader Row := do
  let front ← readOptionalMarks "::"
  if !(← look).startsWithAnyWord then return front ++ [.word (← readName)]
  let words ← repeated do
    let word ← readAnyWord
    if !(← look).startsWith "::" then return ([.word word], false)
    let colons ← readMarks "::"
    if !(← look).startsWithAnyWord then mismatch [.segment]
    return (.word word :: colons, true)
  return front ++ words.flatten

end SpanChain.Derive
