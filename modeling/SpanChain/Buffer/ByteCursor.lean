/-
**Cursors on bytes.**

A byte cursor is a forward cursor on a chain of spans together with an offset into the span of its
node.  It never comes to rest on an empty span or behind the last byte of a span: wherever it
arrives, it first steps over empty spans.

Main definitions:

* `SpanChain.ByteCursor`, `SpanChain.ByteCursor.start`;
* `SpanChain.Pool.skipEmpty` — the first node from a node on that has bytes;
* `SpanChain.ByteCursor.rest` — what is left of the current span;
* `SpanChain.ByteCursor.remaining` — the number of bytes from the cursor to the end;
* `SpanChain.ByteCursor.advance` — moving by a number of bytes.

Main results:

* `SpanChain.Pool.len_pos_of_skipEmpty` — stepping over empty spans ends on a node with bytes;
* `SpanChain.ByteCursor.advance_zero` — moving by no bytes changes nothing.

Links can be stale or even run in a circle, so a walk along them is bounded by the number of nodes
in the pool: after so many nodes one of them has come twice.
-/

import SpanChain.Buffer.Chain
import SpanChain.Cursor

set_option relaxedAutoImplicit false
set_option autoImplicit false

namespace SpanChain

variable {n m : Nat}

/-! ### Stepping over empty spans -/

namespace Pool

/-- The first node with bytes, from a node on, within `k` steps along the links. -/
def skipEmptyWithin (p : Pool Span n m) : Nat → Option (Fin n) → Option (Fin n)
  | _, none => none
  | 0, some x => if p.len x = 0 then none else some x
  | k + 1, some x => if p.len x = 0 then skipEmptyWithin p k (p.next x) else some x

/-- The first node with bytes, from a node on. -/
def skipEmpty (p : Pool Span n m) (x : Option (Fin n)) : Option (Fin n) :=
  p.skipEmptyWithin n x

/-- The sum of the lengths of all spans from a node on, within `k` nodes along the links, added to
a total.  Beyond `k` nodes the links run in a circle and the sum leaves every range. -/
def sumLengths (p : Pool Span n m) : Nat → Option (Fin n) → Nat → Except Fault Nat
  | _, none, total => .ok total
  | 0, some _, _ => .error .addOverflow
  | k + 1, some x, total => do
    let total ← addSize total (p.len x)
    sumLengths p k (p.next x) total

theorem len_pos_of_skipEmptyWithin {p : Pool Span n m} {k : Nat} {x : Option (Fin n)} {y : Fin n}
    (h : p.skipEmptyWithin k x = some y) : 0 < p.len y := by
  fun_induction skipEmptyWithin p k x <;> grind

/-- Stepping over empty spans ends on a node with bytes. -/
theorem len_pos_of_skipEmpty {p : Pool Span n m} {x : Option (Fin n)} {y : Fin n}
    (h : p.skipEmpty x = some y) : 0 < p.len y :=
  len_pos_of_skipEmptyWithin h

@[simp] theorem skipEmpty_none (p : Pool Span n m) : p.skipEmpty none = none := by
  unfold skipEmpty; cases n <;> rfl

end Pool

/-! ### Byte cursors -/

/-- A place between the bytes of a chain of spans. -/
structure ByteCursor (n m : Nat) where
  /-- The cursor on the node whose span holds the next byte. -/
  place : Cursor .forward n m
  /-- The offset of the next byte into this span. -/
  offset : Nat
  deriving DecidableEq, Repr

namespace ByteCursor

/-- The node whose span holds the next byte, none when the cursor has finished. -/
def node (c : ByteCursor n m) : Option (Fin n) := c.place.node

/-- The list that the cursor is bound to. -/
def list (c : ByteCursor n m) : Fin m := c.place.list

/-- Whether the cursor stands on a node. -/
def isActive (c : ByteCursor n m) : Bool := c.node.isSome

/-- The cursor behind the last byte. -/
def finish (c : ByteCursor n m) : ByteCursor n m := ⟨c.place.finish, 0⟩

/-- Whether two cursors stand at the same place, whatever lists they are bound to. -/
def samePlace (c e : ByteCursor n m) : Bool := c.node == e.node && c.offset == e.offset

/-- A cursor on the first byte from a node on. -/
def arrive (p : Pool Span n m) (l : Fin m) (x : Option (Fin n)) : ByteCursor n m :=
  ⟨⟨l, p.skipEmpty x⟩, 0⟩

/-- A cursor on the first byte of a list. -/
def start (p : Pool Span n m) (l : Fin m) : ByteCursor n m := arrive p l (p.first l)

/-- What is left of the current span, an empty span once the cursor has finished. -/
def rest (p : Pool Span n m) (c : ByteCursor n m) : Except Fault Span :=
  match c.node with
  | some x => (p.data x).dropFirst c.offset
  | none => .ok .empty

/-- The number of bytes from the cursor to the end of the list.  The lengths of all spans from the
cursor's node on are summed first and the offset is taken off at the end. -/
def remaining (p : Pool Span n m) (c : ByteCursor n m) : Except Fault Nat := do
  let total ← p.sumLengths n c.node 0
  return total - c.offset

/-- Whether no byte of the current span is left although the cursor stands on its node: only a
stale cursor is in this state. -/
def isSpent (p : Pool Span n m) (c : ByteCursor n m) : Bool :=
  match c.node with
  | some x => p.len x ≤ c.offset
  | none => false

theorem isSpent_arrive (p : Pool Span n m) (l : Fin m) (x : Option (Fin n)) :
    (arrive p l x).isSpent p = false := by
  unfold isSpent arrive
  split
  · next y h =>
    have h' : p.skipEmpty x = some y := h
    have := Pool.len_pos_of_skipEmpty h'
    simp
    omega
  · rfl

/-- Moves forward by `left` bytes, or to the end, and tells how many were too many. -/
def advanceLeft (p : Pool Span n m) (c : ByteCursor n m) (left : Nat) :
    Except Fault (ByteCursor n m × Nat) :=
  if left = 0 then .ok (c, 0)
  else
    match _ : c.node with
    | none => .ok (c, left)
    | some x =>
      if p.len x < c.offset then .error .subOverflow
      else if c.offset + left < p.len x then .ok ({ c with offset := c.offset + left }, 0)
      else advanceLeft p (arrive p c.list (p.next x)) (left - (p.len x - c.offset))
termination_by left + (if c.isSpent p then 1 else 0)
decreasing_by
  rw [isSpent_arrive, isSpent, ‹c.node = some x›]
  simp only [decide_eq_true_eq, Bool.false_eq_true, if_false]
  split <;> omega

/-- Moves forward by up to `k` bytes and tells by how many.  Only at the end of the list are these
fewer than `k`. -/
def advance (p : Pool Span n m) (c : ByteCursor n m) (k : Nat) :
    Except Fault (ByteCursor n m × Nat) := do
  let (c, left) ← c.advanceLeft p k
  return (c, k - left)

/-- Moving by no bytes changes nothing, wherever the cursor stands. -/
@[simp] theorem advance_zero (p : Pool Span n m) (c : ByteCursor n m) :
    c.advance p 0 = .ok (c, 0) := by
  rw [advance, advanceLeft]
  rfl

end ByteCursor

end SpanChain
