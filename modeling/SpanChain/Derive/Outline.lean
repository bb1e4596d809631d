/-
**Declarations as texts.**

A declaration is given by the texts of its parts.  Written one behind the other, with the marks and
brackets that the shape asks for between them, they are the text of the declaration.

Main definitions:

* `SpanChain.Derive.Shape` — the shapes of declarations;
* `SpanChain.Derive.Outline` — the parts of a declaration;
* `SpanChain.Derive.Outline.row?` — the lexemes of its text, none if it cannot be cut into lexemes.
-/

import SpanChain.Derive.Lexer

set_option relaxedAutoImplicit false
set_option autoImplicit false

namespace SpanChain.Derive

/-- The shapes of declarations. -/
inductive Shape where
  /-- One value for each named field. -/
  | record
  /-- One value for each field, without names. -/
  | tuple
  | unit
  /-- One of several variants. -/
  | variants
  /-- One place for all fields. -/
  | overlay
  deriving DecidableEq, Repr

namespace Outline

/-- What is written behind the path of an attribute. -/
inductive Arguments where
  | nothing
  /-- Texts in parentheses. -/
  | list (texts : List Token)
  /-- Texts behind a mark of equality. -/
  | value (texts : List Token)
  deriving DecidableEq, Repr

/-- An attribute. -/
structure Attribute where
  path : Token
  arguments : Arguments
  deriving DecidableEq, Repr

/-- A field. -/
structure Field where
  name : Token
  /-- The texts of the type. -/
  type : List Token
  attributes : List Attribute := []
  deriving DecidableEq, Repr

end Outline

/-- A declaration. -/
structure Outline where
  shape : Shape
  name : Token
  attributes : List Outline.Attribute := []
  /-- The texts of each parameter. -/
  params : List (List Token) := []
  /-- The texts of the conditions on the parameters. -/
  conditions : List Token := []
  fields : List Outline.Field := []
  deriving DecidableEq, Repr

/-- Texts in braces. -/
def braced (texts : List Token) : List Token := "\x7b" :: texts ++ ["\x7d"]

namespace Outline

/-- The texts of what is written behind the path of an attribute. -/
def Arguments.texts : Arguments → List Token
  | .nothing => []
  | .list texts => "(" :: texts ++ [")"]
  | .value texts => "=" :: texts

/-- The texts of an attribute. -/
def Attribute.texts (a : Attribute) : List Token :=
  ["#", "[", a.path] ++ a.arguments.texts ++ ["]"]

/-- The texts of a field with a name. -/
def Field.named (f : Field) : List Token :=
  f.attributes.flatMap Attribute.texts ++ [f.name, ":"] ++ f.type ++ [","]

/-- The texts of a field without a name. -/
def Field.unnamed (f : Field) : List Token :=
  f.attributes.flatMap Attribute.texts ++ f.type ++ [","]

/-- The texts of the parameters. -/
def paramTexts (o : Outline) : List Token :=
  if o.params.isEmpty then [] else "<" :: [","].intercalate o.params ++ [">"]

/-- The texts of the conditions. -/
def conditionTexts (o : Outline) : List Token :=
  if o.conditions.isEmpty then [] else "where" :: o.conditions

/-- The texts of what follows the parameters. -/
def body (o : Outline) : List Token :=
  let named := o.fields.flatMap Field.named
  match o.shape with
  | .record => o.conditionTexts ++ braced named
  | .overlay => o.conditionTexts ++ braced named
  | .variants => o.conditionTexts ++ braced ("V" :: braced named)
  | .tuple => "(" :: o.fields.flatMap Field.unnamed ++ [")"] ++ o.conditionTexts ++ [";"]
  | .unit => o.conditionTexts ++ [";"]

/-- The word in front of the name. -/
def keyword (o : Outline) : Token :=
  match o.shape with
  | .variants => "enum"
  | .overlay => "union"
  | _ => "struct"

/-- The texts of a declaration. -/
def texts (o : Outline) : List Token :=
  o.attributes.flatMap Attribute.texts ++ [o.keyword, o.name] ++ o.paramTexts ++ o.body

/-- The lexemes of a declaration. -/
def row? (o : Outline) : Option Row := lex? (" ".intercalate o.texts)

end Outline

end SpanChain.Derive
