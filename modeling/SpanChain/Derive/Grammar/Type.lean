/-
**Types.**

A type is a path, a macro call, a reference, a pointer, a function, a tuple, an array, a slice, a
sum of bounds, or one of the marks for a type that has no values or is to be found.  Behind
references, pointers and arrows a type is no sum of bounds.

Main definitions:

* `SpanChain.Derive.readType` — types.
-/

import SpanChain.Derive.Grammar.Bound

set_option relaxedAutoImplicit false
set_option autoImplicit false

namespace SpanChain.Derive

/-! ### Sums of bounds -/

/-- Reads bounds behind a first one, each with a plus in front. -/
def readMoreBounds (g : Grammar) : Reader Row := do
  if !(← look).startsWith "+" then return []
  let plus ← readMarks "+"
  return plus ++ boundSum (← summed (fun _ => true) g.bound)

/-- Reads bounds behind a first one; the last plus may have no bound behind it. -/
def readFurtherBounds (g : Grammar) : Reader Row := do
  if !(← look).startsWith "+" then return []
  let plus ← readMarks "+"
  if !(← look).startsWithBound then return plus
  return plus ++ boundSum (← summed Row.startsWithBound g.bound)

/-- Reads the bounds of which a type is the sum, one if it must not be a sum.  At least one of them
names a trait. -/
def readSum (g : Grammar) (sums : Bool) (more : Row → Bool) (problem : Problem) : Reader Row := do
  let parts ← if sums then summed more g.bound else (fun b => [(b, [])]) <$> g.bound
  if !parts.any (·.1.isTrait) then throw problem
  return boundSum parts

/-- Reads an object type from behind its first word, if it has one. -/
def readObject (g : Grammar) (sums : Bool) : Reader Row :=
  readSum g sums Row.startsWithBound .objectWithoutTrait

/-- A sum of bounds: a single bound is told apart. -/
def sumType (row bare more : Row) : TypeRow :=
  ⟨row ++ more, if more.isEmpty then .bound bare else .other⟩

/-! ### Types in parentheses -/

/-- What parentheses around types hold. -/
inductive Enclosed where
  | closed (row : Row)
  /-- A bound on a trait that need not hold. -/
  | polar (bare : Row)
  | single (type : TypeRow)
  deriving DecidableEq, Repr

/-- Reads what parentheses around types hold. -/
def readEnclosed (g : Grammar) : Reader Enclosed := do
  let row ← look
  if row.isEmpty then return .closed []
  if row.startsWithLifetime then return .closed (← readObject g true)
  if row.startsWith "?" then return .polar (← readTraitBound g)
  let first ← g.type true
  if !(← look).startsWith "," then return .single first
  let comma ← readMarks ","
  let types ← separated List.isEmpty (TypeRow.row <$> g.type true)
  return .closed (first.row ++ comma ++ withCommas types)

/-- The row of a type that can be a bound when parentheses stand around it. -/
def TypeRow.asBound? (t : TypeRow) : Option Row :=
  match t.form with
  | .path _ false _ => some t.row
  | .bound bare => some bare
  | _ => none

/-- Reads a type in parentheses, a tuple, or a sum whose first bound stands in parentheses. -/
def readParentheses (g : Grammar) (sums : Bool) : Reader TypeRow := do
  match ← within .round (readEnclosed g) with
  | .closed row => return { row := row.inBrackets .round }
  | .polar bare => return sumType (bare.inBrackets .round) bare (← readMoreBounds g)
  | .single t =>
    match t.asBound? with
    | some bare =>
      if sums && (← look).startsWith "+" then
        return { row := bare.inBrackets .round ++ (← readMoreBounds g) }
      return { row := t.row.inBrackets .round }
    | none => return { row := t.row.inBrackets .round }

/-! ### Functions -/

/-- Reads a parameter of a function that may have a name; the first one may be the value that the
function belongs to. -/
def readNamedInput (g : Grammar) (isFirst : Bool) : Reader Row := do
  let row ← look
  let second : Row := row.drop 1
  let hasColon := second.startsWith ":" && !second.startsWith "::"
  if isFirst && row.startsWithWord "mut" && second.startsWithWord "self" then
    verbatim do
      let _ ← readWord "mut"
      let _ ← readWord "self"
      if (← look).startsWith ":" && !(← look).startsWith "::" then
        let _ ← readMarks ":"
        let _ ← g.type true
  else if hasColon && (row.startsWithName || row.startsWithWord "_" ||
      isFirst && row.startsWithWord "self") then
    let name ← readAnyWord
    let colon ← readMarks ":"
    return .word name :: colon ++ (← g.type true).row
  else return (← g.type true).row

/-- Whether a row starts like the last parameter of a function that takes any number of them. -/
def Row.startsWithVariadic (row : Row) : Bool :=
  row.startsWith "..." ||
    (row.startsWithName || row.startsWithWord "_") && Row.startsWith (row.drop 1) ":" &&
      Row.startsWith (row.drop 2) "..."

/-- Reads a word of any kind and the colon behind it, if the word is there. -/
def readOptionalName : Reader Row := do
  if !(← look).startsWithAnyWord then return []
  let word ← readAnyWord
  return .word word :: (← readMarks ":")

/-- Reads a parameter of a function and the comma behind it; tells whether one more follows. -/
def readInput (g : Grammar) (isFirst : Bool) : Reader (Row × Bool) := do
  let attributes := attributeRow (← readAttributes g)
  if (← look).startsWithVariadic then
    let name ← readOptionalName
    let dots ← readMarks "..."
    return (attributes ++ name ++ dots ++ (← readOptionalMarks ","), false)
  let input ← readNamedInput g isFirst
  if (← look).isEmpty then return (attributes ++ input, false)
  let comma ← readMarks ","
  return (attributes ++ input ++ comma, !(← look).isEmpty)

/-- Reads the parameters of a function. -/
def readInputs (g : Grammar) : Reader Row := do
  if (← look).isEmpty then return []
  let (first, more) ← readInput g true
  if !more then return first
  return first ++ (← repeated (readInput g false)).flatten

/-- Reads a function. -/
def readFunction (g : Grammar) (binder : Row) : Reader Row := do
  let unsafety ← readOptionalWord "unsafe"
  let external ← readOptionalWord "extern"
  let convention ←
    match external, ← look with
    | _ :: _, .literal text :: row =>
      if (Literal.text? text).isSome then
        advanceTo row
        pure [.literal text]
      else pure []
    | _, _ => pure []
  let fnWord ← readWord "fn"
  let inputs ← readGroup .round (readInputs g)
  return binder ++ unsafety ++ external ++ convention ++ fnWord ++ inputs ++ (← readReturn g)

/-! ### All types -/

/-- Reads a type that starts with a path: the path, a macro call, or a sum of bounds. -/
def readNamed (g : Grammar) (sums : Bool) (binder : Row) : Reader TypeRow := do
  let p ← readQualifiedPath g .type
  let row ← look
  if p.isQualified then return ⟨p.row, .path p.last.name true false⟩
  if row.startsWith "!" && !row.startsWith "!=" && p.isPlain then
    let bang ← readMarks "!"
    let (b, inside) ← readAnyGroup
    return { row := p.row ++ bang ++ inside.inBrackets b }
  if !binder.isEmpty || sums && row.startsWith "+" then
    let more ← if sums then readFurtherBounds g else pure []
    return sumType (binder ++ p.row) (binder ++ p.row) more
  return ⟨p.row, .path p.last.name false p.isSingle⟩

/-- Reads an array or a slice. -/
def readArray (g : Grammar) : Reader Row :=
  readGroup .square do
    let element ← g.type true
    if !(← look).startsWith ";" then return element.row
    let semicolon ← readMarks ";"
    return element.row ++ semicolon ++ (← g.expression)

/-- Reads a pointer. -/
def readPointer (g : Grammar) : Reader Row := do
  let star ← readMarks "*"
  let row ← look
  let kind ←
    if row.startsWithWord "const" then readWord "const"
    else if row.startsWithWord "mut" then readWord "mut"
    else mismatch [.token "const", .token "mut"]
  return star ++ kind ++ (← g.type false).row

/-- Reads a reference. -/
def readReference (g : Grammar) : Reader Row := do
  let ampersand ← readMarks "&"
  let lifetime ← readOptionalLifetime
  let mutable ← readOptionalWord "mut"
  return ampersand ++ lifetime ++ mutable ++ (← g.type false).row

/-- Reads an object type from its first word on.  With a star behind the word it is kept as it
is. -/
def readDyn (g : Grammar) (sums : Bool) : Reader Row := do
  if Row.startsWith ((← look).drop 1) "*" then
    verbatim do
      let _ ← readWord "dyn"
      let _ ← readMarks "*"
      readObject g sums
  else
    let word ← readWord "dyn"
    return word ++ (← readObject g sums)

/-- Reads a type that is only known by its traits. -/
def readOpaque (g : Grammar) (sums : Bool) : Reader Row := do
  let word ← readWord "impl"
  let more (row : Row) : Bool := row.startsWithBound || row.startsWithBracket .square
  return word ++ (← readSum g sums more .opaqueWithoutTrait)

/-- What a type can start with. -/
def typeStarts : List Expected :=
  [.token "for", .group .round, .token "fn", .token "unsafe", .token "extern", .identifier,
    .token "::", .token "<", .token "dyn", .group .square, .token "*", .token "&", .token "!",
    .token "impl", .token "_", .lifetime]

/-- What a type with variables in front can go on with. -/
def boundTypeStarts : List Expected :=
  [.identifier, .token "fn", .token "unsafe", .token "extern", .token "super", .token "self",
    .token "Self", .token "crate"]

/-- Whether a row starts with the word of a function. -/
def Row.startsWithFunction (row : Row) : Bool := ["fn", "unsafe", "extern"].any row.startsWithWord

/-- Reads a type. -/
def readType (g : Grammar) (sums : Bool) : Reader TypeRow := do
  let binder ← readBinder g
  let row ← look
  if !binder.isEmpty && !row.startsWithSegment && !row.startsWithFunction then
    mismatch boundTypeStarts
  if row.startsWithBracket .round then readParentheses g sums
  else if row.startsWithFunction then return { row := ← readFunction g binder }
  else if row.startsWithSegment || row.startsWith "::" || row.startsWith "<" then
    readNamed g sums binder
  else if row.startsWithWord "dyn" then return { row := ← readDyn g sums }
  else if row.startsWithBracket .square then return { row := ← readArray g }
  else if row.startsWith "*" then return { row := ← readPointer g }
  else if row.startsWith "&" then return { row := ← readReference g }
  else if row.startsWith "!" then return { row := ← readMarks "!" }
  else if row.startsWithWord "impl" then return { row := ← readOpaque g sums }
  else if row.startsWithWord "_" then return { row := ← readWord "_" }
  else if row.startsWithLifetime then return { row := ← readObject g true }
  else mismatch typeStarts

end SpanChain.Derive
