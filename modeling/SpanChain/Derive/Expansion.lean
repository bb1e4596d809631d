/-
**The code for a declaration.**

A declaration of a record with a field for the links is expanded into the code that makes its values
nodes of lists: access to both links and, where there is a payload, access to the payload.

Main definitions:

* `SpanChain.Derive.Derivation`, `SpanChain.Derive.Item.derive` — what the code depends on, and how
  it is found or refused;
* `SpanChain.Derive.Derivation.ofRow` — the same for a declaration that a row spells;
* `SpanChain.Derive.Derivation.tokens` — the code;
* `SpanChain.Derive.Derivation.text` — its text, in which one blank stands between two tokens.
-/

import SpanChain.Derive.Choice

set_option relaxedAutoImplicit false
set_option autoImplicit false

namespace SpanChain.Derive

/-! ### From a declaration to its derivation -/

/-- All that the code for a declaration depends on. -/
structure Derivation where
  /-- The path of the library that the code refers to. -/
  cratePath : Row
  name : Token
  /-- Its parameters, and whether a comma follows each. -/
  params : List (Param × Bool)
  /-- The conditions on them. -/
  conditions : Row
  payload : Option Field
  deriving DecidableEq, Repr

/-- Checks that a field can hold the links. -/
def Field.checkLink (f : Field) : Except Problem Unit :=
  match f.type.form with
  | .path name _ _ => if name = "DoubleLink" then .ok () else .error .linkNotDouble
  | _ => .error .linkNotPath

/-- The derivation of a declaration.  The first problem in the order of reading is the answer: the
attribute of the declaration, its shape, its fields in order, and the field of the links. -/
def Item.derive (i : Item) : Except Problem Derivation := do
  let cratePath ← i.cratePath
  if i.shape ≠ .record then throw .notRecord
  let choice ← choose i.fields
  match choice.link with
  | none => throw .noLink
  | some link =>
    link.checkLink
    return ⟨cratePath, i.name, i.params, i.conditions, choice.payload.map (·.1)⟩

/-- The derivation of the declaration that a row spells. -/
def Derivation.ofRow (row : Row) : Except Problem Derivation := do
  (← Item.ofRow row).derive

/-! ### Parameters -/

/-- Parameters in angle brackets, each written in the given way, lifetimes first; nothing if there
are none. -/
def angled (write : Param → Row) (params : List (Param × Bool)) : Row :=
  if params.isEmpty then []
  else
    let (lifetimes, others) := params.partition fun (p, _) => p.isLifetime
    markRow "<" ++ joinParts ((lifetimes ++ others).map fun (p, comma) => (write p, comma)) ++
      markRow ">"

/-! ### The code -/

/-- The tokens of a text in which blanks stand between them. -/
def words (text : String) : List Token := (text.toList.splitOn ' ').map String.ofList

/-- A function that is to be expanded where it is called. -/
def inlineFunction (signature : String) (body : List Token) : List Token :=
  words "# [ inline ] fn" ++ words signature ++ braced body

namespace Derivation

/-- The path of a trait of the library. -/
def traitPath (d : Derivation) (name : Token) : List Token :=
  d.cratePath.spelled ++ words ":: linked_list :: intrusive :: traits ::" ++ [name]

/-- The code that gives the declared type a trait. -/
def implementation (d : Derivation) (trait : Token) (body : List Token) : List Token :=
  "impl" :: (angled Param.declared d.params).spelled ++ d.traitPath trait ++ ["for", d.name] ++
    (angled Param.name d.params).spelled ++ d.conditions.spelled ++ braced body

/-- The code for the forward link. -/
def linkCode (d : Derivation) : List Token :=
  d.implementation "Link" <|
    words "type Target = Self ;" ++
    inlineFunction "next ( & self ) -> Option < :: core :: ptr :: NonNull < Self :: Target >>"
      (d.traitPath "Link" ++ words ":: next ( & self . link )") ++
    inlineFunction
      "set_next ( & mut self , next : Option < :: core :: ptr :: NonNull < Self :: Target >> )"
      (d.traitPath "Link" ++ words ":: set_next ( & mut self . link , next ) ;")

/-- The code for the backward link. -/
def prevCode (d : Derivation) : List Token :=
  d.implementation "LinkWithPrev" <|
    inlineFunction "prev ( & self ) -> Option < :: core :: ptr :: NonNull < Self >>"
      (d.traitPath "LinkWithPrev" ++ words ":: prev ( & self . link )") ++
    inlineFunction "set_prev ( & mut self , prev : Option < :: core :: ptr :: NonNull < Self >> )"
      (d.traitPath "LinkWithPrev" ++ words ":: set_prev ( & mut self . link , prev ) ;")

/-- The code for the payload. -/
def payloadCode (d : Derivation) (f : Field) : List Token :=
  d.implementation "NodeWithData" <|
    words "type Data =" ++ f.type.row.spelled ++ [";"] ++
    inlineFunction "data ( & self ) -> & Self :: Data" (words "& self ." ++ [f.name]) ++
    inlineFunction "data_mut ( & mut self ) -> & mut Self :: Data"
      (words "& mut self ." ++ [f.name])

/-- The code. -/
def tokens (d : Derivation) : List Token :=
  d.linkCode ++ d.prevCode ++ d.implementation "Node" [] ++ (d.payload.map d.payloadCode).getD []

/-- The text of the code. -/
def text (d : Derivation) : String := " ".intercalate d.tokens

end Derivation

end SpanChain.Derive
