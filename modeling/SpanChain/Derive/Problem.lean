/-
**Problems with a declaration.**

Main definitions:

* `SpanChain.Derive.Expected` — what was to come at a place in a row;
* `SpanChain.Derive.Problem`, `SpanChain.Derive.Problem.message` — why a declaration is refused, and
  the text of the refusal.
-/

import SpanChain.Derive.Lexeme

set_option relaxedAutoImplicit false
set_option autoImplicit false

namespace SpanChain.Derive

/-- What was to come at a place in a row. -/
inductive Expected where
  | identifier
  | lifetime
  | stringLiteral
  /-- The given mark or word. -/
  | token (text : Token)
  /-- Brackets of the given kind. -/
  | group (bracket : Bracket)
  | delimiter
  | expression
  /-- The name or the number of a field. -/
  | member
  /-- A number without letters attached. -/
  | index
  /-- One more name of a path. -/
  | segment
  deriving DecidableEq, Repr

/-- The name of what was to come. -/
def Expected.text : Expected → String
  | .identifier => "identifier"
  | .lifetime => "lifetime"
  | .stringLiteral => "string literal"
  | .token text => "`" ++ text ++ "`"
  | .group .round => "parentheses"
  | .group .square => "square brackets"
  | .group .curly => "curly braces"
  | .delimiter => "delimiter"
  | .expression => "an expression"
  | .member => "identifier or integer"
  | .index => "unsuffixed integer"
  | .segment => "path segment after `::`"

/-- The names of all that could have come. -/
def Expected.choice : List Expected → String
  | [] => "nothing"
  | [e] => e.text
  | [e, f] => e.text ++ " or " ++ f.text
  | es => "one of: " ++ ", ".intercalate (es.map Expected.text)

/-- Why a declaration is refused. -/
inductive Problem where
  | missingArguments
  | valueForArguments
  /-- A lexeme is none of those that could have come, or the row ends there. -/
  | mismatch (expected : List Expected) (atEnd : Bool)
  /-- A reserved word stands for a name. -/
  | keyword (word : Token)
  | endOfInput
  | unexpectedToken
  | leftover (bracket : Bracket)
  | unreadableText
  /-- A text in quotes has letters attached. -/
  | unexpectedSuffix (letters : String)
  | objectWithoutTrait
  /-- A type that is only known by its traits has none. -/
  | opaqueWithoutTrait
  /-- A bound has both variables of its own and a mark of polarity. -/
  | binderWithPolarity
  | chainedComparison
  /-- What follows a cast would belong to its type. -/
  | behindCast (what : String)
  /-- An expression is of a kind that is not read. -/
  | unsupportedExpression
  | nestedAttribute
  | unknownKey
  | unknownMark
  | notRecord
  | secondMark
  | noLink
  | linkNotPath
  | linkNotDouble
  deriving DecidableEq, Repr

/-- The text of a refusal. -/
def Problem.message : Problem → String
  | .missingArguments => "expected attribute arguments in parentheses: #[node(...)]"
  | .valueForArguments => "expected parentheses: #[node(...)]"
  | .mismatch expected false => "expected " ++ Expected.choice expected
  | .mismatch expected true => "unexpected end of input, expected " ++ Expected.choice expected
  | .keyword word => "expected identifier, found keyword `" ++ word ++ "`"
  | .endOfInput => "unexpected end of input"
  | .unexpectedToken => "unexpected token"
  | .leftover bracket => "unexpected token, expected `" ++ bracket.closing ++ "`"
  | .unreadableText => "cannot parse string into token stream"
  | .unexpectedSuffix letters => "unexpected suffix `" ++ letters ++ "` on string literal"
  | .objectWithoutTrait => "at least one trait is required for an object type"
  | .opaqueWithoutTrait => "at least one trait must be specified"
  | .binderWithPolarity => "`for<...>` binder not allowed with `?` trait polarity modifier"
  | .chainedComparison => "comparison operators cannot be chained"
  | .behindCast what => "casts cannot be followed by " ++ what
  | .unsupportedExpression => "unsupported expression; enable syn's features=[\"full\"]"
  | .nestedAttribute => "unexpected attribute inside of attribute"
  | .unknownKey => "expected attribute `crate_path`"
  | .unknownMark => "expected field attribute `data`"
  | .notRecord => "Node derive macro only supports structs with named fields"
  | .secondMark => "only one field may be marked `#[node(data)]`"
  | .noLink => "Struct must have a field named 'link'"
  | .linkNotPath => "Field 'link' must be a Link type"
  | .linkNotDouble => "Field 'link' must be a 'DoubleLink<Self>'"

end SpanChain.Derive
