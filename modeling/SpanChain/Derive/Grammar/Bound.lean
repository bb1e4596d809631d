/-
**Parameters and bounds.**

A parameter is a lifetime, a type or a constant.  Types and lifetimes may have bounds: a bound is a
lifetime or a path of a trait, possibly with variables of its own.

Main definitions:

* `SpanChain.Derive.Param`, `SpanChain.Derive.readParam` — parameters;
* `SpanChain.Derive.readBinder` — the variables of a bound or of a type;
* `SpanChain.Derive.readBound` — bounds.
-/

import SpanChain.Derive.Grammar.Attribute

set_option relaxedAutoImplicit false
set_option autoImplicit false

namespace SpanChain.Derive

/-! ### Parameters -/

/-- A parameter. -/
structure Param where
  /-- Whether it is a lifetime. -/
  isLifetime : Bool
  /-- Its name. -/
  name : Row
  /-- All of it but what it is by default. -/
  declared : Row
  /-- What it is by default, with the mark of equality in front. -/
  byDefault : Row := []
  deriving DecidableEq, Repr

/-- The row of a parameter. -/
def Param.row (p : Param) : Row := p.declared ++ p.byDefault

/-- A colon with bounds behind it; nothing if there are no bounds. -/
def withColon (bounds : Row) : Row := if bounds.isEmpty then [] else markRow ":" ++ bounds

/-- Reads a lifetime with its bounds. -/
def readLifetimeParam (attributes : Row) : Reader Param := do
  let name ← readLifetime
  let stop (row : Row) : Bool := row.isEmpty || row.startsWith "," || row.startsWith ">"
  let bounds ←
    if (← readOptionalMarks ":").isEmpty || stop (← look) then pure []
    else (·.flatMap fun (row, plus) => row ++ plus) <$> summed (!stop ·) readLifetime
  return ⟨true, name, attributes ++ name ++ withColon bounds, []⟩

/-- Reads a type with its bounds and what it is by default. -/
def readTypeParam (g : Grammar) (attributes : Row) : Reader Param := do
  let name : Row := [.word (← readName)]
  let stop (row : Row) : Bool :=
    row.isEmpty || row.startsWith "," || row.startsWith ">" || row.startsWith "="
  let bounds ←
    if (← readOptionalMarks ":").isEmpty then pure [] else readBoundsUpTo g stop
  let equals ← readOptionalMarks "="
  let type ← if equals.isEmpty then pure [] else TypeRow.row <$> g.type true
  return ⟨false, name, attributes ++ name ++ withColon bounds, equals ++ type⟩

/-- Reads a constant with its type and what it is by default. -/
def readConstParam (g : Grammar) (attributes : Row) : Reader Param := do
  let constWord ← readWord "const"
  let name : Row := [.word (← readName)]
  let colon ← readMarks ":"
  let type ← g.type true
  let equals ← readOptionalMarks "="
  let value ← if equals.isEmpty then pure [] else readConstant g
  return ⟨false, name, attributes ++ constWord ++ name ++ colon ++ type.row, equals ++ value⟩

/-- Reads a parameter; `expected` says in which order the kinds of parameters are named where none
of them is there. -/
def readParam (g : Grammar) (expected : List Expected) : Reader Param := do
  let attributes := attributeRow (← readAttributes g)
  let row ← look
  if row.startsWithName then readTypeParam g attributes
  else if row.startsWithLifetime then readLifetimeParam attributes
  else if row.startsWithWord "const" then readConstParam g attributes
  else mismatch expected

/-! ### Bounds -/

/-- Reads variables in angle brackets, if there are any. -/
def readBinder (g : Grammar) : Reader Row := do
  if !(← look).startsWithWord "for" then return []
  let forWord ← readWord "for"
  let opening ← readMarks "<"
  let params ← separated (·.startsWith ">") <|
    Param.row <$> readParam g [.identifier, .lifetime, .token "const"]
  let closing ← readMarks ">"
  return forWord ++ opening ++ withCommas params ++ closing

/-- Reads the path of a trait with variables in front; a mark in front of these says that the trait
need not hold. -/
def readTraitBound (g : Grammar) : Reader Row := do
  let binder ← readBinder g
  let polarity ← readOptionalMarks "?"
  let binder ← if binder.isEmpty && !polarity.isEmpty then readBinder g else pure binder
  let path ← readTraitPath g
  if !binder.isEmpty && !polarity.isEmpty then throw .binderWithPolarity
  return polarity ++ binder ++ path

/-- Reads a bound. -/
def readBound (g : Grammar) : Reader BoundRow := do
  let row ← look
  if row.startsWithLifetime then
    let lifetime ← readLifetime
    return ⟨lifetime, lifetime, false⟩
  if row.startsWithBracket .round then
    let bare ← within .round (readTraitBound g)
    return ⟨bare.inBrackets .round, bare, true⟩
  let bare ← readTraitBound g
  return ⟨bare, bare, true⟩

end SpanChain.Derive
