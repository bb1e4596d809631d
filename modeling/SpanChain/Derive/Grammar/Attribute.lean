/-
**Attributes.**

An attribute stands in square brackets behind a mark.  It is a path on its own, with a row in
brackets, or with a value.

Main definitions:

* `SpanChain.Derive.Attribute` — what an attribute says;
* `SpanChain.Derive.readAttributes` — all attributes at the front of a row.
-/

import SpanChain.Derive.Grammar.Path

set_option relaxedAutoImplicit false
set_option autoImplicit false

namespace SpanChain.Derive

/-- What is written behind the path of an attribute. -/
inductive Arguments where
  | nothing
  /-- A row in brackets. -/
  | list (bracket : Bracket) (row : Row)
  /-- A value behind a mark of equality. -/
  | value (row : Row)
  deriving DecidableEq, Repr

/-- The row of what is written behind the path of an attribute. -/
def Arguments.row : Arguments → Row
  | .nothing => []
  | .list b row => row.inBrackets b
  | .value row => markRow "=" ++ row

/-- An attribute. -/
structure Attribute where
  path : Row
  arguments : Arguments
  deriving DecidableEq, Repr

/-- The row of an attribute. -/
def Attribute.row (a : Attribute) : Row :=
  markRow "#" ++ (a.path ++ a.arguments.row).inBrackets .square

/-- The row of some attributes. -/
def attributeRow (as : List Attribute) : Row := as.flatMap Attribute.row

/-- Reads the value of an attribute: a literal that ends it, or an expression. -/
def readValue (g : Grammar) : Reader Row := do
  let row ← look
  let isLast := if row.startsWith "-" then row.length == 2 else row.length == 1
  if row.startsWithLiteral && isLast then readLiteral
  else if row.startsWith "#" && Row.startsWithBracket (row.drop 1) .square then
    throw .nestedAttribute
  else g.expression

/-- Reads the path of an attribute and what is behind it. -/
def readMeta (g : Grammar) : Reader Attribute := do
  let path ← if (← look).startsWithWord "unsafe" then readWord "unsafe" else readPlainPath
  let row ← look
  match row with
  | .opening _ :: _ =>
    let (b, inside) ← readAnyGroup
    return ⟨path, .list b inside⟩
  | _ =>
    if row.startsWith "=" && !row.startsWith "==" && !row.startsWith "=>" then
      let _ ← readMarks "="
      return ⟨path, .value (← readValue g)⟩
    return ⟨path, .nothing⟩

/-- Reads an attribute. -/
def readAttribute (g : Grammar) : Reader Attribute := do
  let _ ← readMarks "#"
  within .square (readMeta g)

/-- Reads all attributes at the front. -/
def readAttributes (g : Grammar) : Reader (List Attribute) := do
  if !(← look).startsWith "#" then return []
  repeated do
    let a ← readAttribute g
    return (a, (← look).startsWith "#")

end SpanChain.Derive
