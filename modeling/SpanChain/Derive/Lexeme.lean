/-
**Lexemes.**

A text is read as a row of lexemes: words, lifetimes, literals, marks and brackets.  A mark of
several characters, such as an arrow, is a row of marks of which each is joined with the next one.

Main definitions:

* `SpanChain.Derive.Lexeme`, `SpanChain.Derive.Row` — lexemes and rows of them;
* `SpanChain.Derive.Row.startsWith` — whether a row starts with a mark of several characters;
* `SpanChain.Derive.Row.isBalanced` — every bracket of a row has its partner;
* `SpanChain.Derive.Row.group?` — the content of the brackets at the front of a row;
* `SpanChain.Derive.Row.spelled` — the texts of a row, joined marks in one.
-/

set_option relaxedAutoImplicit false
set_option autoImplicit false

namespace SpanChain.Derive

/-- The text of a lexeme or of joined marks. -/
abbrev Token := String

/-! ### Lexemes -/

/-- The kinds of brackets. -/
inductive Bracket where
  | round
  | square
  | curly
  deriving DecidableEq, Repr

/-- The text of an opening bracket. -/
def Bracket.opening : Bracket → Token
  | .round => "("
  | .square => "["
  | .curly => "\x7b"

/-- The text of a closing bracket. -/
def Bracket.closing : Bracket → Token
  | .round => ")"
  | .square => "]"
  | .curly => "\x7d"

/-- A lexeme. -/
inductive Lexeme where
  /-- A word, which may have `r#` in front of it. -/
  | word (text : Token)
  /-- A word with an apostrophe in front of it. -/
  | lifetime (text : Token)
  | literal (text : Token)
  /-- A mark, and whether another mark or a lifetime stands side by side with it. -/
  | mark (char : Char) (joined : Bool)
  | opening (bracket : Bracket)
  | closing (bracket : Bracket)
  deriving DecidableEq, Repr

/-- A row of lexemes. -/
abbrev Row := List Lexeme

/-! ### Words -/

/-- The words that cannot be names. -/
def reserved : List Token :=
  ["_", "abstract", "as", "async", "await", "become", "box", "break", "const", "continue", "crate",
    "do", "dyn", "else", "enum", "extern", "false", "final", "fn", "for", "if", "impl", "in", "let",
    "loop", "macro", "match", "mod", "move", "mut", "override", "priv", "pub", "ref", "return",
    "Self", "self", "static", "struct", "super", "trait", "true", "try", "type", "typeof", "unsafe",
    "unsized", "use", "virtual", "where", "while", "yield"]

/-- Whether a word is a name. -/
def isName (text : Token) : Bool := !reserved.contains text

/-! ### Marks -/

/-- The marks of a text, each joined with the next one. -/
def joinedMarks : List Char → Row
  | [] => []
  | [c] => [.mark c false]
  | c :: cs => .mark c true :: joinedMarks cs

/-- The mark that a text is. -/
def markRow (text : Token) : Row := joinedMarks text.toList

namespace Row

/-- Whether a row starts with joined marks. -/
def startsWithMarks : List Char → Row → Bool
  | [], _ => true
  | [c], .mark d _ :: _ => c == d
  | c :: cs, .mark d joined :: row => c == d && joined && startsWithMarks cs row
  | _, _ => false

/-- Whether a row starts with the mark that a text is; the mark may go on. -/
def startsWith (row : Row) (text : Token) : Bool := startsWithMarks text.toList row

/-- Whether a row starts with a word. -/
def startsWithWord (row : Row) (text : Token) : Bool := row.head? == some (.word text)

/-- Whether a row starts with a name. -/
def startsWithName : Row → Bool
  | .word text :: _ => isName text
  | _ => false

/-- Whether a row starts with a word of any kind. -/
def startsWithAnyWord : Row → Bool
  | .word _ :: _ => true
  | _ => false

/-- Whether a row starts with a lifetime. -/
def startsWithLifetime : Row → Bool
  | .lifetime _ :: _ => true
  | _ => false

/-- Whether a row starts with a bracket. -/
def startsWithBracket (row : Row) (b : Bracket) : Bool := row.head? == some (.opening b)

/-! ### Brackets -/

/-- Whether the brackets of a row close those that are open, the innermost first, and all others
have partners within the row. -/
def closes : List Bracket → Row → Bool
  | opened, [] => opened.isEmpty
  | opened, .opening b :: row => closes (b :: opened) row
  | b :: opened, .closing c :: row => b == c && closes opened row
  | [], .closing _ :: _ => false
  | opened, _ :: row => closes opened row

/-- Whether every bracket of a row has its partner. -/
def isBalanced (row : Row) : Bool := closes [] row

/-- The row up to the bracket that closes one more than `depth` open ones, and the row behind it. -/
def splitClosing : Nat → Row → Option (Row × Row)
  | _, [] => none
  | 0, .closing _ :: row => some ([], row)
  | depth + 1, .closing b :: row =>
    (splitClosing depth row).map fun (content, rest) => (.closing b :: content, rest)
  | depth, .opening b :: row =>
    (splitClosing (depth + 1) row).map fun (content, rest) => (.opening b :: content, rest)
  | depth, l :: row => (splitClosing depth row).map fun (content, rest) => (l :: content, rest)

/-- The bracket at the front of a row, what it holds, and what follows. -/
def group? : Row → Option (Bracket × Row × Row)
  | .opening b :: row => (splitClosing 0 row).map (b, ·)
  | _ => none

/-- A row in brackets. -/
def inBrackets (b : Bracket) (row : Row) : Row := .opening b :: row ++ [.closing b]

/-! ### Texts -/

/-- A text put in front of the first of some texts. -/
def glue (text : Token) : List Token → List Token
  | [] => [text]
  | t :: ts => (text ++ t) :: ts

/-- The texts of a row, joined marks in one with what follows. -/
def spelled : Row → List Token
  | [] => []
  | .word text :: row => text :: spelled row
  | .lifetime text :: row => text :: spelled row
  | .literal text :: row => text :: spelled row
  | .mark c true :: row => glue c.toString (spelled row)
  | .mark c false :: row => c.toString :: spelled row
  | .opening b :: row => b.opening :: spelled row
  | .closing b :: row => b.closing :: spelled row

end Row

end SpanChain.Derive
