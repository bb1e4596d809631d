/-
**Literals.**

A literal is written in quotes or is a number.  Letters may be attached behind it.

Main definitions:

* `SpanChain.Derive.Literal.behind` — what follows the literal at the front of a text;
* `SpanChain.Derive.Literal.text?` — the text that a literal stands for, and the letters attached.
-/

import SpanChain.Derive.Literal.Number
import SpanChain.Derive.Literal.Quoted

set_option relaxedAutoImplicit false
set_option autoImplicit false

namespace SpanChain.Derive.Literal

/-- Reads a literal with the letters attached to it. -/
def behind (cs : List Char) : Option (List Char) :=
  match cs with
  | '\'' :: rest => (behindCharacter .text rest).map behindSuffix
  | 'b' :: '\'' :: rest => (behindCharacter .bytes rest).map behindSuffix
  | c :: _ =>
    if c.isDigit then behindNumber cs
    else (readString cs).map fun (_, _, rest) => behindSuffix rest
  | [] => none

theorem length_behind {cs rest : List Char} (h : behind cs = some rest) :
    rest.length < cs.length := by
  unfold behind at h
  split at h
  · simp only [Option.map_eq_some_iff] at h
    grind [→ length_behindCharacter, length_behindSuffix]
  · simp only [Option.map_eq_some_iff] at h
    grind [→ length_behindCharacter, length_behindSuffix]
  · split at h
    · exact length_behindNumber h
    · simp only [Option.map_eq_some_iff, Prod.exists] at h
      grind [→ length_readString, length_behindSuffix]
  · grind

/-- Whether a literal is a number. -/
def isNumber (literal : String) : Bool := literal.toList.head?.any Char.isDigit

/-- The text that a literal stands for and the letters attached to it, if it is a text in quotes. -/
def text? (literal : String) : Option (String × String) :=
  match readString literal.toList with
  | some (.text, text, suffix) =>
    if suffix.isEmpty || isWord suffix then some (String.ofList text, String.ofList suffix)
    else none
  | _ => none

end SpanChain.Derive.Literal
