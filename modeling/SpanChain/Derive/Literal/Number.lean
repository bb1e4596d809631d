/-
**Numbers.**

A number is whole, of base two, eight, ten or sixteen, or has a point or an exponent.  Low lines may
stand among its digits.

Main definitions:

* `SpanChain.Derive.Literal.behindFraction`, `SpanChain.Derive.Literal.behindWhole` — what follows
  the digits of a number;
* `SpanChain.Derive.Literal.behindNumber` — what follows a number with the letters attached to it.
-/

import SpanChain.Derive.Literal.Digit
import SpanChain.Derive.Word

set_option relaxedAutoImplicit false
set_option autoImplicit false

namespace SpanChain.Derive.Literal

/-- What follows a sign, if there is one. -/
def behindSign : List Char → List Char
  | '+' :: cs => cs
  | '-' :: cs => cs
  | cs => cs

/-- Reads the digits of an exponent, with a sign in front or not. -/
def behindExponent (cs : List Char) : Option (List Char) :=
  match (behindSign (cs.dropWhile (· = '_'))).dropWhile (· = '_') with
  | c :: cs => if c.isDigit then some (cs.dropWhile isDigitOrLow) else none
  | [] => none

/-- What follows the digits behind a point and the exponent, if there is one. -/
def behindPoint (cs : List Char) : List Char :=
  match cs.dropWhile isDigitOrLow with
  | 'e' :: rest => (behindExponent rest).getD ('e' :: rest)
  | 'E' :: rest => (behindExponent rest).getD ('E' :: rest)
  | rest => rest

/-- Reads the digits of a number with a point or an exponent.  A point is not part of a number when
a word or another point follows it; an exponent is one only when it has digits. -/
def behindFraction (cs : List Char) : Option (List Char) :=
  match cs.dropWhile isDigitOrLow with
  | '.' :: cs =>
    if cs.head?.any fun c => c == '.' || isWordStart c then none else some (behindPoint cs)
  | 'e' :: cs => behindExponent cs
  | 'E' :: cs => behindExponent cs
  | _ => none

/-- Whether a character belongs to the digits of a number of the given base, valid there or not. -/
def inDigits (base : Nat) : Char → Bool := if base = 16 then isHexOrLow else isDigitOrLow

/-- Reads the digits of a whole number of the given base. -/
def behindDigits (base : Nat) (cs : List Char) : Option (List Char) :=
  let digits := (cs.takeWhile (inDigits base)).filterMap hexValue?
  if digits.isEmpty || digits.any (base ≤ ·) then none else some (cs.dropWhile (inDigits base))

/-- Reads the digits of a whole number. -/
def behindWhole : List Char → Option (List Char)
  | '0' :: 'x' :: cs => behindDigits 16 cs
  | '0' :: 'o' :: cs => behindDigits 8 cs
  | '0' :: 'b' :: cs => behindDigits 2 cs
  | cs => behindDigits 10 cs

/-- Reads the letters attached to a number, which must not go on with other parts of words. -/
def behindNumberSuffix (cs : List Char) : Option (List Char) :=
  let rest := behindSuffix cs
  if rest.head?.any isWordPart then none else some rest

/-- Reads a number. -/
def behindNumber (cs : List Char) : Option (List Char) :=
  (behindFraction cs).bind behindNumberSuffix <|> (behindWhole cs).bind behindNumberSuffix

theorem length_behindSign (cs : List Char) : (behindSign cs).length ≤ cs.length := by
  unfold behindSign
  split <;> grind

theorem length_behindExponent {cs rest : List Char} (h : behindExponent cs = some rest) :
    rest.length < cs.length := by
  unfold behindExponent at h
  split at h
  · have := congrArg List.length ‹_›
    grind [length_dropWhile_le, length_behindSign]
  · grind

theorem length_behindPoint (cs : List Char) : (behindPoint cs).length ≤ cs.length := by
  have h := length_dropWhile_le isDigitOrLow cs
  unfold behindPoint
  split
  · cases _ : behindExponent _ <;> grind [→ length_behindExponent]
  · cases _ : behindExponent _ <;> grind [→ length_behindExponent]
  · grind

theorem length_behindFraction {cs rest : List Char} (h : behindFraction cs = some rest) :
    rest.length < cs.length := by
  have := length_dropWhile_le isDigitOrLow cs
  unfold behindFraction at h
  split at h <;> grind [length_behindPoint, → length_behindExponent]

theorem length_behindDigits {base : Nat} {cs rest : List Char}
    (h : behindDigits base cs = some rest) : rest.length < cs.length := by
  unfold behindDigits at h
  have h₁ : (cs.takeWhile (inDigits base) ++ cs.dropWhile (inDigits base)).length = cs.length := by
    rw [List.takeWhile_append_dropWhile]
  cases h₂ : cs.takeWhile (inDigits base) with
  | nil => simp [h₂] at h
  | cons c ds => grind

theorem length_behindWhole {cs rest : List Char} (h : behindWhole cs = some rest) :
    rest.length < cs.length := by
  unfold behindWhole at h
  split at h <;> grind [→ length_behindDigits]

theorem length_behindNumberSuffix {cs rest : List Char} (h : behindNumberSuffix cs = some rest) :
    rest.length ≤ cs.length := by
  unfold behindNumberSuffix at h
  grind [length_behindSuffix]

theorem length_behindNumber {cs rest : List Char} (h : behindNumber cs = some rest) :
    rest.length < cs.length := by
  simp only [behindNumber, Option.orElse_eq_orElse, Option.orElse_eq_or, Option.or_eq_some_iff,
    Option.bind_eq_some_iff] at h
  grind [→ length_behindFraction, → length_behindWhole, → length_behindNumberSuffix]

end SpanChain.Derive.Literal
