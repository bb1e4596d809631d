/-
**Literals in quotes.**

A literal in double quotes is a text, a row of bytes or a text that ends with a zero.  It is written
with escapes or raw between marks.  A character or a byte is written in single quotes.

Main definitions:

* `SpanChain.Derive.Literal.Flavor` — what the quotes of a literal hold;
* `SpanChain.Derive.Literal.readEscape` — the character behind a backslash;
* `SpanChain.Derive.Literal.readString` — the characters in double quotes;
* `SpanChain.Derive.Literal.behindCharacter` — what follows a character in single quotes.

Every reader gives what is behind the part that it reads, and none if the part is not there.
-/

import SpanChain.Derive.Literal.Digit
import SpanChain.Derive.Word

set_option relaxedAutoImplicit false
set_option autoImplicit false

namespace SpanChain.Derive.Literal

/-! ### Escapes -/

/-- What the quotes of a literal hold. -/
inductive Flavor where
  /-- Any text. -/
  | text
  /-- Bytes, written in ASCII. -/
  | bytes
  /-- A text without the character zero. -/
  | zeroEnded
  deriving DecidableEq, Repr

/-- Whether a character may be written as it is. -/
def Flavor.admits : Flavor → Char → Bool
  | .text, _ => true
  | .bytes, c => c.toNat < 128
  | .zeroEnded, c => c.toNat ≠ 0

/-- Whether a number may be written with two digits. -/
def Flavor.admitsHex : Flavor → Nat → Bool
  | .text, k => k < 128
  | .bytes, _ => true
  | .zeroEnded, k => k ≠ 0

/-- Whether a number may be written in braces. -/
def Flavor.admitsBraced : Flavor → Nat → Bool
  | .text, k => k.isValidChar
  | .bytes, _ => false
  | .zeroEnded, k => k.isValidChar && k ≠ 0

/-- The character of a letter behind a backslash. -/
def escaped? : Char → Option Char
  | 'n' => some '\n'
  | 'r' => some '\r'
  | 't' => some '\t'
  | '0' => some (Char.ofNat 0)
  | '\\' => some '\\'
  | '\'' => some '\''
  | '"' => some '"'
  | _ => none

/-- Whether digits in braces are one to six, with low lines only behind the first. -/
def isBracedNumber (ds : List Char) : Bool :=
  ds.head?.any isHex && (ds.filter isHex).length ≤ 6

/-- Reads an escape from behind its backslash; gives the character and what follows. -/
def readEscape (f : Flavor) : List Char → Option (Char × List Char)
  | 'x' :: a :: b :: rest =>
    if isHex a && isHex b && f.admitsHex (hexNumber [a, b]) then
      some (Char.ofNat (hexNumber [a, b]), rest)
    else none
  | 'u' :: '\x7b' :: rest =>
    let ds := rest.takeWhile isHexOrLow
    match rest.dropWhile isHexOrLow with
    | '\x7d' :: rest =>
      if isBracedNumber ds && f.admitsBraced (hexNumber ds) then
        some (Char.ofNat (hexNumber ds), rest)
      else none
    | _ => none
  | c :: rest =>
    match escaped? c with
    | some d => if d.toNat = 0 && f = .zeroEnded then none else some (d, rest)
    | none => none
  | [] => none

theorem length_readEscape {f : Flavor} {cs rest : List Char} {c : Char}
    (h : readEscape f cs = some (c, rest)) : rest.length < cs.length := by
  unfold readEscape at h
  split at h <;> grind [length_dropWhile_le]

/-! ### Quotes -/

/-- Adds a character in front of what was read. -/
def consRead (c : Char) (r : Option (List Char × List Char)) : Option (List Char × List Char) :=
  r.map fun (text, rest) => (c :: text, rest)

theorem consRead_eq_some {c : Char} {r : Option (List Char × List Char)} {text rest : List Char} :
    consRead c r = some (text, rest) ↔ ∃ tail, r = some (tail, rest) ∧ c :: tail = text := by
  simp [consRead]

/-- Reads up to the closing quote; gives the text and what is behind the quote.  A backslash at the
end of a line joins it with the next one. -/
def readQuoted (f : Flavor) : List Char → Option (List Char × List Char)
  | [] => none
  | '"' :: rest => some ([], rest)
  | '\\' :: '\n' :: rest => readQuoted f (rest.dropWhile isWhiteSpace)
  | '\\' :: '\r' :: '\n' :: rest => readQuoted f (rest.dropWhile isWhiteSpace)
  | '\\' :: rest =>
    match _ : readEscape f rest with
    | some (c, rest) => consRead c (readQuoted f rest)
    | none => none
  | c :: rest => if f.admits c then consRead c (readQuoted f rest) else none
termination_by cs => cs.length
decreasing_by all_goals grind [length_dropWhile_le, → length_readEscape]

/-- Reads up to a quote that is followed by the given marks. -/
def readRaw (f : Flavor) (marks : List Char) : List Char → Option (List Char × List Char)
  | [] => none
  | c :: rest =>
    if c = '"' ∧ marks.isPrefixOf rest then some ([], rest.drop marks.length)
    else if f.admits c then consRead c (readRaw f marks rest)
    else none

/-- Reads a raw literal from the marks in front of its quote on; there are at most 255. -/
def readMarked (f : Flavor) (cs : List Char) : Option (List Char × List Char) :=
  let marks := cs.takeWhile (· = '#')
  match cs.dropWhile (· = '#') with
  | '"' :: body => if marks.length ≤ 255 then readRaw f marks body else none
  | _ => none

theorem length_readQuoted {f : Flavor} {cs text rest : List Char}
    (h : readQuoted f cs = some (text, rest)) : rest.length < cs.length := by
  fun_induction readQuoted f cs generalizing text <;>
    grind [consRead_eq_some, length_dropWhile_le, → length_readEscape]

theorem length_readRaw {f : Flavor} {marks cs text rest : List Char}
    (h : readRaw f marks cs = some (text, rest)) : rest.length < cs.length := by
  fun_induction readRaw f marks cs generalizing text <;> grind [consRead_eq_some]

theorem length_readMarked {f : Flavor} {cs text rest : List Char}
    (h : readMarked f cs = some (text, rest)) : rest.length < cs.length := by
  unfold readMarked at h
  grind [→ length_readRaw, length_dropWhile_le]

/-- Whether a carriage return stands without a line feed behind it. -/
def hasBareReturn : List Char → Bool
  | '\r' :: '\n' :: cs => hasBareReturn cs
  | '\r' :: _ => true
  | _ :: cs => hasBareReturn cs
  | [] => false

/-- Reads a literal in double quotes of any flavor and form; gives the flavor, the text and what is
behind the last mark. -/
def readAnyString : List Char → Option (Flavor × List Char × List Char)
  | '"' :: cs => (readQuoted .text cs).map (.text, ·)
  | 'r' :: cs => (readMarked .text cs).map (.text, ·)
  | 'b' :: '"' :: cs => (readQuoted .bytes cs).map (.bytes, ·)
  | 'b' :: 'r' :: cs => (readMarked .bytes cs).map (.bytes, ·)
  | 'c' :: '"' :: cs => (readQuoted .zeroEnded cs).map (.zeroEnded, ·)
  | 'c' :: 'r' :: cs => (readMarked .zeroEnded cs).map (.zeroEnded, ·)
  | _ => none

/-- Reads a literal in double quotes, in which every carriage return has a line feed behind it. -/
def readString (cs : List Char) : Option (Flavor × List Char × List Char) :=
  (readAnyString cs).filter fun (_, _, rest) =>
    !hasBareReturn (cs.take (cs.length - rest.length))

/-- Reads a character or a byte from behind the opening quote on. -/
def behindCharacter (f : Flavor) : List Char → Option (List Char)
  | '\\' :: cs =>
    match readEscape f cs with
    | some (_, '\'' :: rest) => some rest
    | _ => none
  | c :: '\'' :: rest => if f.admits c then some rest else none
  | _ => none

theorem length_readAnyString {f : Flavor} {cs text rest : List Char}
    (h : readAnyString cs = some (f, text, rest)) : rest.length < cs.length := by
  unfold readAnyString at h
  split at h <;>
    simp only [Option.map_eq_some_iff, Prod.mk.injEq, reduceCtorEq] at h <;>
    obtain ⟨_, h, rfl, rfl⟩ := h <;>
    first
    | have := length_readQuoted h; grind
    | have := length_readMarked h; grind

theorem length_readString {f : Flavor} {cs text rest : List Char}
    (h : readString cs = some (f, text, rest)) : rest.length < cs.length :=
  length_readAnyString (Option.filter_eq_some_iff.1 h).1

theorem length_behindCharacter {f : Flavor} {cs rest : List Char}
    (h : behindCharacter f cs = some rest) : rest.length < cs.length := by
  unfold behindCharacter at h
  split at h
  · split at h
    · have := length_readEscape ‹_›; grind
    · grind
  · grind
  · grind

end SpanChain.Derive.Literal
