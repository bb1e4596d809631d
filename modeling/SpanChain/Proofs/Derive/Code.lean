/-
**The code of a node.**

The code for a declaration is a row of implementations of traits.  This module says token by token
what they are: what stands in front of the braces, which types and functions stand in them, and that
these are all that each trait asks for.

Main definitions:

* `SpanChain.Derive.Trait`, `SpanChain.Derive.Trait.required` — the traits of nodes, and what they
  leave to their implementations;
* `SpanChain.Derive.Method`, `SpanChain.Derive.Implementation` — functions and implementations, and
  their tokens;
* `SpanChain.Derive.Derivation.head`, `SpanChain.Derive.Derivation.Gives` — what stands in front of
  the braces, and the implementations that a code consists of;
* `SpanChain.Derive.Derivation.forward`, `SpanChain.Derive.Derivation.backward`,
  `SpanChain.Derive.nodeMark`, `SpanChain.Derive.Field.access` — those of a node.

Main results:

* `SpanChain.Derive.Derivation.angled_params` — how parameters are written;
* `SpanChain.Derive.Derivation.isComplete_of_mem` — what is given for a node leaves nothing out;
* `SpanChain.Derive.Derivation.gives_implementations` — **the code consists of what is given for a
  node**.
-/

import SpanChain.Derive.Expansion
import Mathlib.Data.List.Perm.Basic

set_option relaxedAutoImplicit false
set_option autoImplicit false

namespace SpanChain.Derive

/-! ### Traits -/

/-- The traits of nodes. -/
inductive Trait where
  | link
  | linkWithPrev
  | node
  /-- Nodes with a payload. -/
  | nodeWithData
  deriving DecidableEq, Repr

namespace Trait

def name : Trait → Token
  | link => "Link"
  | linkWithPrev => "LinkWithPrev"
  | node => "Node"
  | nodeWithData => "NodeWithData"

/-- The types and functions of a trait that every implementation must give. -/
def required : Trait → List Token
  | link => ["Target", "next", "set_next"]
  | linkWithPrev => ["prev", "set_prev"]
  | node => []
  | nodeWithData => ["Data", "data", "data_mut"]

end Trait

/-! ### Implementations and their tokens -/

/-- A function that is to be expanded where it is called. -/
structure Method where
  name : Token
  /-- What stands in its parentheses. -/
  inputs : List Token
  /-- The type of its result, if it has one. -/
  result : Option (List Token) := none
  body : List Token

namespace Method

/-- The tokens in front of the braces of a function, without the word that says what it is. -/
def signature (f : Method) : List Token :=
  [f.name, "("] ++ f.inputs ++ [")"] ++ (f.result.map fun type => "->" :: type).getD []

/-- The tokens of a function. -/
def tokens (f : Method) : List Token :=
  ["#", "[", "inline", "]", "fn"] ++ f.signature ++ ["\x7b"] ++ f.body ++ ["\x7d"]

end Method

/-- What is given for a trait. -/
structure Implementation where
  trait : Trait
  /-- Types with their names. -/
  types : List (Token × List Token) := []
  methods : List Method := []

namespace Implementation

/-- The tokens in the braces of an implementation. -/
def body (t : Implementation) : List Token :=
  t.types.flatMap (fun (name, type) => ["type", name, "="] ++ type ++ [";"]) ++
    t.methods.flatMap Method.tokens

/-- Whether exactly the types and functions are given that the trait asks for. -/
def IsComplete (t : Implementation) : Prop :=
  t.types.map (·.1) ++ t.methods.map Method.name = t.trait.required

end Implementation

namespace Derivation

variable (d : Derivation)

/-- The path to a trait. -/
def pathTo (t : Trait) : List Token :=
  d.cratePath.spelled ++
    ["::", "linked_list", "::", "intrusive", "::", "traits", "::", t.name]

/-- The parameters, each written in the given way, in angle brackets: lifetimes in front of all
others, commas between them, and one behind the last if it had one. -/
def generics (write : Param → Row) : Row :=
  let params := d.params.filter (·.1.isLifetime) ++ d.params.filter (!·.1.isLifetime)
  match params.getLast? with
  | none => []
  | some (_, comma) =>
    [.mark '<' false] ++ [.mark ',' false].intercalate (params.map (write ·.1)) ++
      (if comma then [.mark ',' false] else []) ++ [.mark '>' false]

/-- What stands in front of the braces of an implementation for the declared type. -/
def head (t : Trait) : List Token :=
  ["impl"] ++ (d.generics Param.declared).spelled ++ d.pathTo t ++ ["for", d.name] ++
    (d.generics Param.name).spelled ++ d.conditions.spelled

/-- The tokens of an implementation for the declared type. -/
def spelled (t : Implementation) : List Token := d.head t.trait ++ ["\x7b"] ++ t.body ++ ["\x7d"]

/-- The code consists of these implementations for the declared type, in this order. -/
structure Gives (ts : List Implementation) : Prop where
  tokens : d.tokens = ts.flatMap d.spelled
  /-- In the text of the code one blank stands between two tokens. -/
  text : d.text = " ".intercalate (ts.flatMap d.spelled)

end Derivation

/-! ### The implementations of a node -/

/-- The type of a pointer that may be missing. -/
def pointerTo (type : List Token) : List Token :=
  ["Option", "<", "::", "core", "::", "ptr", "::", "NonNull", "<"] ++ type ++ [">>"]

namespace Derivation

variable (d : Derivation)

/-- A link is read by the function of the same trait and name for the field `link`. -/
def reading (t : Trait) (name : Token) (target : List Token) : Method where
  name := name
  inputs := ["&", "self"]
  result := pointerTo target
  body := d.pathTo t ++ ["::", name, "(", "&", "self", ".", "link", ")"]

/-- A link is written by the function of the same trait and name for the field `link`. -/
def writing (t : Trait) (name input : Token) (target : List Token) : Method where
  name := name
  inputs := ["&", "mut", "self", ",", input, ":"] ++ pointerTo target
  body := d.pathTo t ++ ["::", name, "(", "&", "mut", "self", ".", "link", ",", input, ")", ";"]

/-- The declared type has a forward link, to values of the type itself. -/
def forward : Implementation where
  trait := .link
  types := [("Target", ["Self"])]
  methods := [d.reading .link "next" ["Self", "::", "Target"],
    d.writing .link "set_next" "next" ["Self", "::", "Target"]]

/-- The declared type has a backward link. -/
def backward : Implementation where
  trait := .linkWithPrev
  methods := [d.reading .linkWithPrev "prev" ["Self"],
    d.writing .linkWithPrev "set_prev" "prev" ["Self"]]

end Derivation

/-- A type is a node; all else comes from its links. -/
def nodeMark : Implementation where
  trait := .node

namespace Field

variable (f : Field)

/-- The field is read. -/
def data : Method where
  name := "data"
  inputs := ["&", "self"]
  result := some ["&", "Self", "::", "Data"]
  body := ["&", "self", ".", f.name]

/-- The field is lent for writing. -/
def dataMut : Method where
  name := "data_mut"
  inputs := ["&", "mut", "self"]
  result := some ["&", "mut", "Self", "::", "Data"]
  body := ["&", "mut", "self", ".", f.name]

/-- The payload is the field, and its type that of the field. -/
def access : Implementation where
  trait := .nodeWithData
  types := [("Data", f.type.row.spelled)]
  methods := [f.data, f.dataMut]

end Field

/-- What is given for a node: both links, and access to the payload if there is one. -/
def Derivation.implementations (d : Derivation) : List Implementation :=
  [d.forward, d.backward, nodeMark] ++ (d.payload.map Field.access).toList

/-- Nothing that a trait asks for is missing. -/
theorem Derivation.isComplete_of_mem {d : Derivation} {t : Implementation}
    (ht : t ∈ d.implementations) : t.IsComplete := by
  simp only [implementations, List.mem_append, List.mem_cons, List.not_mem_nil, or_false,
    Option.mem_toList, Option.map_eq_some_iff] at ht
  rcases ht with (rfl | rfl | rfl) | ⟨f, -, rfl⟩ <;> rfl

/-! ### The code consists of them -/

/-- Parts that are put in another order have commas between them, and one behind the last if it had
one. -/
theorem joinParts_concat (parts : List (Row × Bool)) (row : Row) (comma : Bool) :
    joinParts (parts ++ [(row, comma)]) =
      [.mark ',' false].intercalate ((parts ++ [(row, comma)]).map (·.1)) ++
        if comma then [.mark ',' false] else [] := by
  induction parts with
  | nil => cases comma <;> simp [joinParts, withCommas, markRow, joinedMarks]
  | cons part parts ih =>
      have hjoin : joinParts (part :: (parts ++ [(row, comma)])) =
          part.1 ++ markRow "," ++ joinParts (parts ++ [(row, comma)]) := by
        cases parts <;> rfl
      have hne : (parts ++ [(row, comma)]).map (·.1) ≠ [] := by simp
      rw [List.cons_append, hjoin, ih, List.map_cons, List.intercalate_cons_of_ne_nil hne]
      simp [markRow, joinedMarks]

theorem inlineFunction_eq {signature : String} {body : List Token} {f : Method}
    (hsignature : words signature = f.signature) (hbody : body = f.body) :
    inlineFunction signature body = f.tokens := by
  have hwords : words "# [ inline ] fn" = ["#", "[", "inline", "]", "fn"] := rfl
  simp [inlineFunction, Method.tokens, braced, hwords, hsignature, hbody]

namespace Derivation

variable (d : Derivation)

theorem traitPath_name (t : Trait) : d.traitPath t.name = d.pathTo t := by
  have hwords : words ":: linked_list :: intrusive :: traits ::" =
      ["::", "linked_list", "::", "intrusive", "::", "traits", "::"] := rfl
  simp [traitPath, pathTo, hwords]

/-- Parameters are written as what stands in front of the braces asks for. -/
theorem angled_params (write : Param → Row) : angled write d.params = d.generics write := by
  have hnot : (not ∘ fun x : Param × Bool => x.1.isLifetime) = fun x => !x.1.isLifetime := rfl
  have hperm := List.filter_append_perm (fun x : Param × Bool => x.1.isLifetime) d.params
  simp only [angled, generics, List.partition_eq_filter_filter, hnot]
  rcases List.eq_nil_or_concat (d.params.filter (·.1.isLifetime) ++
      d.params.filter (!·.1.isLifetime)) with hnil | ⟨params, ⟨p, comma⟩, hparams⟩
  · have hparams : d.params = [] := (hnil ▸ hperm).nil_eq.symm
    simp [hparams]
  · have hne : d.params ≠ [] := by
      intro h
      simp [h] at hparams
    simp [hparams, hne, joinParts_concat, markRow, joinedMarks, Function.comp_def]

theorem implementation_name (t : Implementation) :
    d.implementation t.trait.name t.body = d.spelled t := by
  simp [implementation, spelled, head, d.traitPath_name, braced, d.angled_params]

theorem linkCode_eq : d.linkCode = d.spelled d.forward := by
  have hpath : d.traitPath "Link" = d.pathTo .link := d.traitPath_name .link
  rw [← d.implementation_name, linkCode, hpath, List.append_assoc]
  refine congrArg (d.implementation "Link") ?_
  simp only [forward, Implementation.body, List.flatMap_cons, List.flatMap_nil, List.append_nil]
  rw [inlineFunction_eq (f := d.reading .link "next" ["Self", "::", "Target"]),
    inlineFunction_eq (f := d.writing .link "set_next" "next" ["Self", "::", "Target"])] <;> rfl

theorem prevCode_eq : d.prevCode = d.spelled d.backward := by
  have hpath : d.traitPath "LinkWithPrev" = d.pathTo .linkWithPrev := d.traitPath_name .linkWithPrev
  rw [← d.implementation_name, prevCode, hpath]
  refine congrArg (d.implementation "LinkWithPrev") ?_
  simp only [backward, Implementation.body, List.flatMap_cons, List.flatMap_nil, List.append_nil]
  rw [inlineFunction_eq (f := d.reading .linkWithPrev "prev" ["Self"]),
    inlineFunction_eq (f := d.writing .linkWithPrev "set_prev" "prev" ["Self"])] <;> rfl

theorem payloadCode_eq (f : Field) : d.payloadCode f = d.spelled f.access := by
  rw [← d.implementation_name, payloadCode, List.append_assoc]
  refine congrArg (d.implementation "NodeWithData") ?_
  simp only [Field.access, Implementation.body, List.flatMap_cons, List.flatMap_nil, List.append_nil]
  rw [inlineFunction_eq (f := f.data), inlineFunction_eq (f := f.dataMut)] <;> rfl

/-- **The code consists of what is given for a node.** -/
theorem gives_implementations : d.Gives d.implementations := by
  have hnode : d.implementation "Node" [] = d.spelled nodeMark := d.implementation_name nodeMark
  have htokens : d.tokens = d.implementations.flatMap d.spelled := by
    rw [tokens, linkCode_eq, prevCode_eq, hnode, implementations]
    cases d.payload with
    | none => simp
    | some f => simp [payloadCode_eq]
  exact ⟨htokens, by rw [text, htokens]⟩

end Derivation

end SpanChain.Derive
