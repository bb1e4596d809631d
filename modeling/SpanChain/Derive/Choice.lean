/-
**The choice of fields.**

Of the fields of a declaration one holds the links and at most one is the payload.  The field named
`link` holds the links.  The payload is the field that is marked or, without a mark, the field named
`data`.

Main definitions:

* `SpanChain.Derive.Choice`, `SpanChain.Derive.Choice.add` — what is known after some fields, and
  after one more;
* `SpanChain.Derive.choose` — the choice among all fields.
-/

import SpanChain.Derive.Setting

set_option relaxedAutoImplicit false
set_option autoImplicit false

namespace SpanChain.Derive

/-- The fields that were chosen so far. -/
structure Choice where
  /-- The field of the links. -/
  link : Option Field := none
  /-- The payload, and whether it is marked. -/
  payload : Option (Field × Bool) := none
  deriving DecidableEq, Repr

namespace Choice

/-- Whether a marked payload was chosen. -/
def hasMarked (c : Choice) : Bool := c.payload.any (·.2)

/-- The choice after one more field.  Of several fields named `link` the last is taken, of several
unmarked ones named `data` the first; a second mark is a problem. -/
def add (c : Choice) (f : Field) : Except Problem Choice := do
  let marked ← f.isMarked
  if f.name = "link" then return { c with link := some f }
  if marked then
    if c.hasMarked then throw .secondMark
    return { c with payload := some (f, true) }
  if f.name = "data" ∧ c.payload.isNone then return { c with payload := some (f, false) }
  return c

end Choice

/-- The choice among fields. -/
def choose (fields : List Field) : Except Problem Choice := fields.foldlM Choice.add {}

end SpanChain.Derive
