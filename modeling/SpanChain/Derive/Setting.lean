/-
**What attributes set.**

Of the attributes of a declaration or a field only the first one that is named `node` is read.  For
a declaration it sets the path of the library; a field is marked by it as the payload.

Main definitions:

* `SpanChain.Derive.pathOfText` — the path that a text spells;
* `SpanChain.Derive.Item.cratePath` — the path that a declaration sets, or the usual one;
* `SpanChain.Derive.Field.isMarked` — whether a field is marked as the payload.
-/

import SpanChain.Derive.Item

set_option relaxedAutoImplicit false
set_option autoImplicit false

namespace SpanChain.Derive

/-! ### Paths in texts -/

/-- The path that a row spells. -/
def pathOfRow (row : Row) : Except Problem Row :=
  (PathRow.row <$> readPath (Grammar.forRow row) .type).readAll row

/-- The path that a text spells. -/
def pathOfText (text : String) : Except Problem Row :=
  match lex? text with
  | some row => pathOfRow row
  | none => .error .unreadableText

/-! ### Attributes -/

/-- Whether an attribute is the one that is read. -/
def Attribute.isNode (a : Attribute) : Bool := a.path == [.word "node"]

/-- The row of the arguments that an attribute must have. -/
def Attribute.argumentRow (a : Attribute) : Except Problem Row :=
  match a.arguments with
  | .nothing => .error .missingArguments
  | .value _ => .error .valueForArguments
  | .list _ row => .ok row

/-- Reads a text in quotes; gives it with the letters attached to it. -/
def readText : Reader (String × String) := do
  match ← look with
  | .literal text :: row =>
    match Literal.text? text with
    | some read =>
      advanceTo row
      return read
    | none => mismatch [.stringLiteral]
  | _ => mismatch [.stringLiteral]

/-- Reads the path that the attribute of a declaration sets. -/
def readCratePath : Reader Row := do
  let key ← readName
  if key ≠ "crate_path" then throw .unknownKey
  let _ ← readMarks "="
  let (text, suffix) ← readText
  let path ← (pathOfText text : Except Problem Row)
  if suffix ≠ "" then throw (.unexpectedSuffix suffix)
  return path

/-- The path that a declaration sets for the library, or the usual one. -/
def Item.cratePath (i : Item) : Except Problem Row :=
  match i.attributes.find? Attribute.isNode with
  | some a => do readCratePath.readAll (← a.argumentRow)
  | none => .ok (markRow "::" ++ [.word "heni_collections"])

/-- Whether a field is marked as the payload. -/
def Field.isMarked (f : Field) : Except Problem Bool :=
  match f.attributes.find? Attribute.isNode with
  | some a => do
    let mark ← readName.readAll (← a.argumentRow)
    if mark ≠ "data" then throw .unknownMark
    return true
  | none => .ok false

end SpanChain.Derive
