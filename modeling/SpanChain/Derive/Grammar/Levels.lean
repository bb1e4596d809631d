/-
**The grammar of a row.**

Types, bounds and expressions are nested at most as deeply as a row is long, and a type may start
with a bound.  The grammar for a row has as many levels as that needs.

Main definitions:

* `SpanChain.Derive.Grammar.level` — the grammar with a given number of levels;
* `SpanChain.Derive.Grammar.forRow` — the grammar for a row.
-/

import SpanChain.Derive.Grammar.Expression
import SpanChain.Derive.Grammar.Type

set_option relaxedAutoImplicit false
set_option autoImplicit false

namespace SpanChain.Derive.Grammar

/-- The grammar with the given number of levels. -/
def level : Nat → Grammar
  | 0 => ⟨fun _ => mismatch [], mismatch [], mismatch []⟩
  | n + 1 =>
    let inner := level n
    ⟨readType inner, readBound inner, readExpression inner⟩

/-- The grammar for a row. -/
def forRow (row : Row) : Grammar := level (2 * row.length + 2)

end SpanChain.Derive.Grammar
