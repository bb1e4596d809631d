/-
**What can go wrong.**

An operation on a chain can fail in two ways.  A *fault* is a broken promise of the caller: the
operation stops at it and there is no state afterwards.  A *refusal* is an ordinary answer: the
operation declines, and everything is as it was.

Main definitions:

* `SpanChain.Fault`, `SpanChain.Fault.message` — the faults and their texts;
* `SpanChain.Refusal`, `SpanChain.Refusal.name`, `SpanChain.Refusal.message` — the refusals and
  their texts.

Main results:

* `SpanChain.bind_eq_ok`, `SpanChain.map_eq_ok` — what steps that succeed have come through.
-/

set_option relaxedAutoImplicit false
set_option autoImplicit false

namespace SpanChain

/-! ### Faults -/

/-- The ways in which a caller can break the rules of an operation. -/
inductive Fault where
  /-- An anchor, or a node to be removed or cut at, is not on the list it is used with. -/
  | notMember
  /-- A node is to be linked right beside itself. -/
  | alreadyLinked
  /-- A finished cursor is to be advanced. -/
  | finishedCursor
  /-- The tail of a split is the list that is being split. -/
  | splitIntoItself
  /-- A span is to be entered at an offset beyond its length. -/
  | offsetPastEnd (offset len : Nat)
  /-- A span is to be cut to a length above its own. -/
  | growSpan (len newLen : Nat)
  /-- A sum of sizes leaves the range of a size. -/
  | addOverflow
  /-- A difference of sizes would be negative. -/
  | subOverflow
  deriving DecidableEq, Repr

/-- The text of a fault. -/
def Fault.message : Fault → String
  | .notMember => "Node must be a member of the list it is used with"
  | .alreadyLinked => "Node is already linked at this position"
  | .finishedCursor => "Cannot advance a finished cursor"
  | .splitIntoItself => "Cannot split a list into itself"
  | .offsetPastEnd offset len => s!"Offset {offset} is past the end of a {len} byte span"
  | .growSpan len newLen => s!"Cannot grow a {len} byte span to {newLen}"
  | .addOverflow => "attempt to add with overflow"
  | .subOverflow => "attempt to subtract with overflow"

section Lemmas

variable {α β : Type} {x : Except Fault α} {a : α} {b b' : β}

/-- What comes of two steps in a row came of the second, after the first. -/
theorem bind_eq_ok {f : α → Except Fault β} :
    (x >>= f) = .ok b ↔ ∃ a, x = .ok a ∧ f a = .ok b := by
  cases x <;> simp [bind, Except.bind]

theorem map_eq_ok {f : α → β} : f <$> x = .ok b ↔ ∃ a, x = .ok a ∧ f a = b := by
  cases x <;> simp [Functor.map, Except.map]

theorem map_mk_eq_ok : (b, ·) <$> x = .ok (b', a) ↔ b = b' ∧ x = .ok a := by
  cases x <;> simp [Functor.map, Except.map]

end Lemmas

/-! ### Refusals -/

/-- The answers by which a checked operation declines. -/
inductive Refusal where
  /-- The node is not on the list. -/
  | notAMember
  /-- A cut inside a span needs a spare node for the second half. -/
  | missingExtraNode
  deriving DecidableEq, Repr

/-- The short name of a refusal. -/
def Refusal.name : Refusal → String
  | .notAMember => "NotAMember"
  | .missingExtraNode => "MissingExtraNode"

/-- The text of a refusal. -/
def Refusal.message : Refusal → String
  | .notAMember => "node is not a member of the list"
  | .missingExtraNode => "splitting inside a span requires an extra node"

end SpanChain
