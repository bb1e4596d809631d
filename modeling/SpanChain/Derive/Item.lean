/-
**Declarations.**

A declaration has a shape, a name, parameters, conditions on them, and fields.  It and its fields
may carry attributes.

Main definitions:

* `SpanChain.Derive.Field`, `SpanChain.Derive.Item` — fields and declarations;
* `SpanChain.Derive.readItem` — the declaration that a row spells;
* `SpanChain.Derive.Item.ofRow` — the same for a whole row.
-/

import SpanChain.Derive.Grammar.Levels
import SpanChain.Derive.Outline

set_option relaxedAutoImplicit false
set_option autoImplicit false

namespace SpanChain.Derive

/-! ### The parts of a declaration -/

/-- A field of a declaration. -/
structure Field where
  /-- The name; none if fields have no names. -/
  name : Token
  type : TypeRow
  attributes : List Attribute := []
  deriving DecidableEq, Repr

/-- A declaration. -/
structure Item where
  shape : Shape
  name : Token
  attributes : List Attribute := []
  /-- The parameters, in order, and whether a comma follows each. -/
  params : List (Param × Bool) := []
  /-- The conditions on the parameters with the word in front of them. -/
  conditions : Row := []
  fields : List Field := []
  deriving DecidableEq, Repr

/-! ### Parameters and conditions -/

/-- Reads a parameter of a declaration, which may be a low line. -/
def readItemParam (g : Grammar) : Reader Param := do
  let attributes := attributeRow (← readAttributes g)
  if (← look).startsWithWord "_" then
    let name ← readWord "_"
    return ⟨false, name, attributes ++ name, []⟩
  let p ← readParam g [.lifetime, .identifier, .token "const"]
  return { p with declared := attributes ++ p.declared }

/-- Reads the parameters of a declaration. -/
def readItemParams (g : Grammar) : Reader (List (Param × Bool)) := do
  if !(← look).startsWith "<" then return []
  let _ ← readMarks "<"
  let params ← separated (·.startsWith ">") (readItemParam g)
  let _ ← readMarks ">"
  return params

/-- Whether a condition or its bounds end at the front of a row. -/
def Row.endsCondition (row : Row) : Bool :=
  row.isEmpty || row.startsWithBracket .curly || row.startsWith "," || row.startsWith ";" ||
    row.startsWith ":" && !row.startsWith "::" || row.startsWith "="

/-- Reads a condition on a lifetime. -/
def readLifetimeCondition : Reader Row := do
  let lifetime ← readLifetime
  let colon ← readMarks ":"
  let stop (row : Row) : Bool := row.endsCondition || row.startsWith ":"
  if stop (← look) then return lifetime ++ colon
  let bounds ← summed (!stop ·) readLifetime
  return lifetime ++ colon ++ bounds.flatMap fun (row, plus) => row ++ plus

/-- Reads a condition on a type. -/
def readTypeCondition (g : Grammar) : Reader Row := do
  let binder ← readBinder g
  let type ← g.type true
  let colon ← readMarks ":"
  return binder ++ type.row ++ colon ++ (← readBoundsUpTo g Row.endsCondition)

/-- Reads a condition. -/
def readCondition (g : Grammar) : Reader Row := do
  let row ← look
  if row.startsWithLifetime && Row.startsWith (row.drop 1) ":" then readLifetimeCondition
  else readTypeCondition g

/-- Reads the conditions with the word in front of them, if it is there; nothing if none follow. -/
def readConditions (g : Grammar) : Reader Row := do
  if !(← look).startsWithWord "where" then return []
  let word ← readWord "where"
  if (← look).endsCondition then return []
  let rows ← repeated do
    let condition ← readCondition g
    if !(← look).startsWith "," then return (condition, false)
    let comma ← readMarks ","
    return (condition ++ comma, !(← look).endsCondition)
  return word ++ rows.flatten

/-! ### Fields -/

/-- Reads a field with a name. -/
def readNamedField (g : Grammar) : Reader Field := do
  let attributes ← readAttributes g
  let _ ← readOptionalWord "pub"
  let name ← readName
  let _ ← readMarks ":"
  return ⟨name, ← g.type true, attributes⟩

/-- Reads a field without a name. -/
def readUnnamedField (g : Grammar) : Reader Field := do
  let attributes ← readAttributes g
  let _ ← readOptionalWord "pub"
  return ⟨"", ← g.type true, attributes⟩

/-- Reads fields with names in braces. -/
def readNamedFields (g : Grammar) : Reader (List Field) :=
  within .curly do return (← separated List.isEmpty (readNamedField g)).map (·.1)

/-- Reads fields without names in parentheses. -/
def readUnnamedFields (g : Grammar) : Reader (List Field) :=
  within .round do return (← separated List.isEmpty (readUnnamedField g)).map (·.1)

/-- Reads a variant; gives its fields. -/
def readVariant (g : Grammar) : Reader (List Field) := do
  let _ ← readAttributes g
  let _ ← readName
  if (← look).startsWithBracket .curly then readNamedFields g
  else if (← look).startsWithBracket .round then readUnnamedFields g
  else return []

/-! ### Declarations -/

/-- Reads what follows the parameters of a declaration with named fields, with fields without names
or without fields: its shape, conditions and fields. -/
def readStructBody (g : Grammar) : Reader (Shape × Row × List Field) := do
  let hasWord := (← look).startsWithWord "where"
  let conditions ← readConditions g
  let row ← look
  if !hasWord && row.startsWithBracket .round then
    let fields ← readUnnamedFields g
    let conditions ← readConditions g
    let _ ← readMarks ";"
    return (.tuple, conditions, fields)
  if row.startsWithBracket .curly then return (.record, conditions, ← readNamedFields g)
  if row.startsWith ";" then
    let _ ← readMarks ";"
    return (.unit, conditions, [])
  mismatch <| (if hasWord then [] else [.token "where", .group .round]) ++
    [.group .curly, .token ";"]

/-- Reads what follows the parameters of a declaration: its shape, conditions and fields. -/
def readBody (g : Grammar) (keyword : Token) : Reader (Shape × Row × List Field) := do
  if keyword = "struct" then return ← readStructBody g
  let conditions ← readConditions g
  if keyword = "union" then return (.overlay, conditions, ← readNamedFields g)
  let variants ← within .curly (separated List.isEmpty (readVariant g))
  return (.variants, conditions, variants.flatMap (·.1))

/-- Reads a declaration. -/
def readItem (g : Grammar) : Reader Item := do
  let attributes ← readAttributes g
  let row ← look
  unless ["struct", "enum", "union"].any row.startsWithWord do
    mismatch [.token "struct", .token "enum", .token "union"]
  let keyword ← readAnyWord
  let name ← readName
  let params ← readItemParams g
  let (shape, conditions, fields) ← readBody g keyword
  return ⟨shape, name, attributes, params, conditions, fields⟩

/-- The declaration that a row spells. -/
def Item.ofRow (row : Row) : Except Problem Item :=
  (readItem (Grammar.forRow row)).readAll row

end SpanChain.Derive
