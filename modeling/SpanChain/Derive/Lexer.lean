/-
**The lexemes of a text.**

A text is cut into words, lifetimes, literals, marks and brackets.  Blanks and remarks separate
lexemes and are dropped; a remark that documents what follows it stands for an attribute.

Main definitions:

* `SpanChain.Derive.readRemark` — a remark, up to the end of its line or its own end;
* `SpanChain.Derive.readLexeme` — the lexeme at the front of a text;
* `SpanChain.Derive.lex?` — the lexemes of a text, none if it cannot be cut or its brackets do not
  fit.

Main results:

* `SpanChain.Derive.length_readPiece` — a text gets shorter with every piece, so that the cut ends.
-/

import SpanChain.Derive.Lexeme
import SpanChain.Derive.Literal

set_option relaxedAutoImplicit false
set_option autoImplicit false

namespace SpanChain.Derive

/-! ### Remarks -/

/-- What a remark is for. -/
inductive RemarkKind where
  /-- It says something to the reader only. -/
  | plain
  /-- It documents what follows. -/
  | outer
  /-- It documents what it stands in. -/
  | inner
  deriving DecidableEq, Repr

/-- The kind of a remark, from behind its first two marks on. -/
def RemarkKind.of (mark : Char) : List Char → RemarkKind
  | '!' :: _ => .inner
  | [c] => if c = mark then .outer else .plain
  | c :: d :: _ => if c = mark ∧ d ≠ mark ∧ d ≠ '/' then .outer else .plain
  | [] => .plain

/-- The content of the attribute that a remark with the given text stands for. -/
def documentation (text : List Char) : Row :=
  [.word "doc", .mark '=' false, .literal ("\"" ++ String.ofList text ++ "\"")]

/-- The attribute that a remark with the given text stands for. -/
def RemarkKind.row (text : List Char) : RemarkKind → Row
  | .plain => []
  | .outer => .mark '#' false :: (documentation text).inBrackets .square
  | .inner => .mark '#' false :: .mark '!' false :: (documentation text).inBrackets .square

/-- The end of the line and what follows. -/
def behindLine : List Char → List Char
  | [] => []
  | '\n' :: cs => '\n' :: cs
  | '\r' :: '\n' :: cs => '\r' :: '\n' :: cs
  | _ :: cs => behindLine cs

/-- What follows the end of a remark in which remarks may be nested, when `depth` are open. -/
def behindNestedRemark (depth : Nat) : List Char → Option (List Char)
  | [] => none
  | '/' :: '*' :: cs => behindNestedRemark (depth + 1) cs
  | '*' :: '/' :: cs => if depth = 1 then some cs else behindNestedRemark (depth - 1) cs
  | _ :: cs => behindNestedRemark depth cs

/-- What follows a remark whose first two marks end with the given one. -/
def behindRemark (mark : Char) (cs : List Char) : Option (List Char) :=
  if mark = '/' then some (behindLine cs) else behindNestedRemark 1 cs

/-- The text of a remark that documents, without the marks around it. -/
def remarkText (mark : Char) (cs rest : List Char) : List Char :=
  let closing := if mark = '/' then 0 else 2
  (cs.take (cs.length - rest.length - closing)).drop 1

/-- Reads a remark from behind its first two marks on; gives the lexemes it stands for.  A remark
that documents has no bare carriage returns. -/
def readRemark (mark : Char) (cs : List Char) : Option (Row × List Char) :=
  match behindRemark mark cs, RemarkKind.of mark cs with
  | none, _ => none
  | some rest, .plain => some ([], rest)
  | some rest, kind =>
    let text := remarkText mark cs rest
    if Literal.hasBareReturn text then none else some (kind.row text, rest)

theorem length_behindLine (cs : List Char) : (behindLine cs).length ≤ cs.length := by
  fun_induction behindLine cs <;> grind

theorem length_behindNestedRemark {depth : Nat} {cs rest : List Char}
    (h : behindNestedRemark depth cs = some rest) : rest.length ≤ cs.length := by
  fun_induction behindNestedRemark depth cs <;> grind

theorem length_behindRemark {mark : Char} {cs rest : List Char}
    (h : behindRemark mark cs = some rest) : rest.length ≤ cs.length := by
  unfold behindRemark at h
  grind [length_behindLine, → length_behindNestedRemark]

theorem length_readRemark {mark : Char} {cs rest : List Char} {row : Row}
    (h : readRemark mark cs = some (row, rest)) : rest.length ≤ cs.length := by
  unfold readRemark at h
  grind [→ length_behindRemark]

/-! ### Words and marks -/

/-- The words that cannot be made names by `r#` in front of them. -/
def plainWords : List String := ["_", "super", "self", "Self", "crate"]

/-- What follows the word at the front, which may have `r#` in front of it. -/
def behindName : List Char → Option (List Char)
  | 'r' :: '#' :: cs =>
    (behindWord cs).filter fun rest =>
      !plainWords.contains (String.ofList (cs.take (cs.length - rest.length)))
  | cs => behindWord cs

/-- What literals in quotes start with when they do not start with the quote itself. -/
def literalOpenings : List String :=
  ["r\"", "r#\"", "r##", "b\"", "b'", "br\"", "br#", "c\"", "cr\"", "cr#"]

/-- Whether a text starts like a literal in quotes. -/
def opensLiteral (cs : List Char) : Bool :=
  literalOpenings.any fun opening => opening.toList.isPrefixOf cs

/-- What follows the name of a lifetime, which has no quote and no mark of a raw name behind it. -/
def behindLifetime (cs : List Char) : Option (List Char) :=
  (behindName cs).filter fun rest =>
    match rest with
    | '\'' :: _ => false
    | '#' :: _ => "r#".toList.isPrefixOf cs
    | _ => true

/-- The marks. -/
def isMark (c : Char) : Bool := "~!@#$%^&*-=+|;:,<.>/?".toList.contains c

/-- Whether a text starts with a mark or an apostrophe and not with a remark. -/
def opensMark : List Char → Bool
  | '/' :: '/' :: _ => false
  | '/' :: '*' :: _ => false
  | c :: _ => isMark c || c == '\''
  | [] => false

/-- The bracket that a character is. -/
def bracket? : Char → Option Lexeme
  | '(' => some (.opening .round)
  | '[' => some (.opening .square)
  | '\x7b' => some (.opening .curly)
  | ')' => some (.closing .round)
  | ']' => some (.closing .square)
  | '\x7d' => some (.closing .curly)
  | _ => none

/-- The brackets around a remark that stand for a mistake and are one literal. -/
def mistake : List Char := "(/*ERROR*/)".toList

/-- What follows the literal at the front. -/
def behindLiteral (cs : List Char) : Option (List Char) :=
  if mistake.isPrefixOf cs then some (cs.drop mistake.length) else Literal.behind cs

/-- What follows the lifetime at the front. -/
def behindApostrophe : List Char → Option (List Char)
  | '\'' :: cs => behindLifetime cs
  | _ => none

/-- What follows the word at the front, which does not start like a literal in quotes. -/
def behindPlainName (cs : List Char) : Option (List Char) :=
  if opensLiteral cs then none else behindName cs

/-- The lexeme that is cut off a text, and what follows. -/
def cutOff (kind : Token → Lexeme) (cs : List Char) (behind : Option (List Char)) :
    Option (Lexeme × List Char) :=
  behind.map fun rest => (kind (String.ofList (cs.take (cs.length - rest.length))), rest)

/-- Reads the bracket or mark at the front. -/
def readMark : List Char → Option (Lexeme × List Char)
  | [] => none
  | c :: cs =>
    match bracket? c with
    | some l => some (l, cs)
    | none => if isMark c then some (.mark c (opensMark cs), cs) else none

/-- Reads the lexeme at the front.  Literals come first, as they can start like words. -/
def readLexeme (cs : List Char) : Option (Lexeme × List Char) :=
  (cutOff .literal cs (behindLiteral cs)).or <|
    (cutOff .lifetime cs (behindApostrophe cs)).or <|
      (readMark cs).or (cutOff .word cs (behindPlainName cs))

theorem length_behindName {cs rest : List Char} (h : behindName cs = some rest) :
    rest.length < cs.length := by
  unfold behindName at h
  split at h
  · have := length_behindWord (Option.filter_eq_some_iff.1 h).1
    grind
  · exact length_behindWord h

theorem length_behindLifetime {cs rest : List Char} (h : behindLifetime cs = some rest) :
    rest.length < cs.length :=
  length_behindName (Option.filter_eq_some_iff.1 h).1

theorem length_behindLiteral {cs rest : List Char} (h : behindLiteral cs = some rest) :
    rest.length < cs.length := by
  unfold behindLiteral at h
  split at h
  · have := (List.isPrefixOf_iff_prefix.1 ‹_›).length_le
    have : mistake.length = 11 := by decide
    grind
  · exact Literal.length_behind h

theorem cutOff_eq_some {kind : Token → Lexeme} {cs rest : List Char} {behind : Option (List Char)}
    {l : Lexeme} (h : cutOff kind cs behind = some (l, rest)) : behind = some rest := by
  cases behind <;> simp_all [cutOff]

theorem length_readMark {cs rest : List Char} {l : Lexeme} (h : readMark cs = some (l, rest)) :
    rest.length < cs.length := by
  unfold readMark at h
  grind

theorem length_readLexeme {cs rest : List Char} {l : Lexeme} (h : readLexeme cs = some (l, rest)) :
    rest.length < cs.length := by
  simp only [readLexeme, Option.or_eq_some_iff] at h
  rcases h with h | ⟨_, h | ⟨_, h | ⟨_, h⟩⟩⟩
  · exact length_behindLiteral (cutOff_eq_some h)
  · have h := cutOff_eq_some h
    unfold behindApostrophe at h
    grind [→ length_behindLifetime]
  · exact length_readMark h
  · have h := cutOff_eq_some h
    unfold behindPlainName at h
    grind [→ length_behindName]

/-! ### Texts -/

/-- Reads the blank, the remark or the lexeme at the front; gives the row it stands for. -/
def readPiece : List Char → Option (Row × List Char)
  | '/' :: '/' :: cs => readRemark '/' cs
  | '/' :: '*' :: cs => readRemark '*' cs
  | c :: cs =>
    if isBlank c then some ([], cs)
    else (readLexeme (c :: cs)).map fun (l, rest) => ([l], rest)
  | [] => none

theorem length_readPiece {cs rest : List Char} {row : Row} (h : readPiece cs = some (row, rest)) :
    rest.length < cs.length := by
  unfold readPiece at h
  split at h
  · grind [→ length_readRemark]
  · grind [→ length_readRemark]
  · split at h
    · grind
    · simp only [Option.map_eq_some_iff, Prod.exists, Prod.mk.injEq] at h
      grind [→ length_readLexeme]
  · grind

/-- The lexemes of a text, whether or not the brackets fit. -/
def pieces (cs : List Char) : Option Row :=
  if cs.isEmpty then some []
  else
    match _ : readPiece cs with
    | some (row, rest) => (row ++ ·) <$> pieces rest
    | none => none
termination_by cs.length
decreasing_by exact length_readPiece ‹_›

/-- The text without a mark of byte order in front. -/
def withoutOrderMark : List Char → List Char
  | '\ufeff' :: cs => cs
  | cs => cs

/-- The lexemes of a text. -/
def lex? (text : String) : Option Row :=
  (pieces (withoutOrderMark text.toList)).filter Row.isBalanced

end SpanChain.Derive
