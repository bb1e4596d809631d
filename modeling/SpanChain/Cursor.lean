/-
**Cursors on nodes.**

A cursor is bound to a list and stands on a node or, finished, in the gap that closes the list to a
ring.  It is a plain value: copies are independent, and it is not told when lists change under it,
so that it can be stale.  A cursor walks in one of two directions, and everything it does is meant
in its walking order: behind a backward cursor is what precedes its node in the list.

Main definitions:

* `SpanChain.Direction`, `SpanChain.Cursor`;
* `SpanChain.Cursor.start`, `SpanChain.Cursor.onNode`, `SpanChain.Cursor.onNode?` — new cursors;
* `SpanChain.Cursor.advance` — one node further;
* `SpanChain.Cursor.insertAfter`, `SpanChain.Cursor.insertBefore`, `SpanChain.Cursor.remove`;
* `SpanChain.Cursor.cutBefore`, `SpanChain.Cursor.cutAfter` — splitting the list at the cursor;
* `SpanChain.Cursor.appendAtSeam` — joining two lists, with the cursor where they meet.
-/

import SpanChain.Pool.Edit

set_option relaxedAutoImplicit false
set_option autoImplicit false

namespace SpanChain

variable {α : Type} {n m : Nat}

/-! ### Directions -/

/-- The two walking orders of a list. -/
inductive Direction where
  /-- From the first node to the last. -/
  | forward
  /-- From the last node to the first. -/
  | backward
  deriving DecidableEq, Repr

/-- The other direction. -/
def Direction.opposite : Direction → Direction
  | .forward => .backward
  | .backward => .forward

@[simp] theorem Direction.opposite_opposite (d : Direction) : d.opposite.opposite = d := by
  cases d <;> rfl

namespace Pool

/-- What follows a node in walking order. -/
def follow (p : Pool α n m) : Direction → Fin n → Option (Fin n)
  | .forward, x => p.next x
  | .backward, x => p.prev x

/-- The first node of a list in walking order. -/
def start (p : Pool α n m) : Direction → Fin m → Option (Fin n)
  | .forward, l => p.first l
  | .backward, l => p.last l

/-- Inserts a node behind a position in walking order. -/
def insertBeyond (p : Pool α n m) : Direction → Fin m → Option (Fin n) → Fin n →
    Except Fault (Pool α n m)
  | .forward => p.insertAfter
  | .backward => p.insertBefore

/-- Inserts a node in front of a position in walking order. -/
def insertAhead (p : Pool α n m) : Direction → Fin m → Option (Fin n) → Fin n →
    Except Fault (Pool α n m)
  | .forward => p.insertBefore
  | .backward => p.insertAfter

/-- Moves a node and all that is still to be walked behind it to another list. -/
def cutFrom (p : Pool α n m) : Direction → Fin m → Fin n → Fin m → Except Fault (Pool α n m)
  | .forward => p.cutBefore
  | .backward => p.cutThrough

section Lemmas

variable (p : Pool α n m)

@[simp] theorem follow_forward (x : Fin n) : p.follow .forward x = p.next x := rfl

@[simp] theorem follow_backward (x : Fin n) : p.follow .backward x = p.prev x := rfl

@[simp] theorem start_forward (l : Fin m) : p.start .forward l = p.first l := rfl

@[simp] theorem start_backward (l : Fin m) : p.start .backward l = p.last l := rfl

@[simp] theorem insertBeyond_forward : p.insertBeyond .forward = p.insertAfter := rfl

@[simp] theorem insertBeyond_backward : p.insertBeyond .backward = p.insertBefore := rfl

@[simp] theorem insertAhead_forward : p.insertAhead .forward = p.insertBefore := rfl

@[simp] theorem insertAhead_backward : p.insertAhead .backward = p.insertAfter := rfl

@[simp] theorem cutFrom_forward : p.cutFrom .forward = p.cutBefore := rfl

@[simp] theorem cutFrom_backward : p.cutFrom .backward = p.cutThrough := rfl

end Lemmas

end Pool

/-! ### Cursors -/

/-- A position of a list, as seen by a walker. -/
structure Cursor (d : Direction) (n m : Nat) where
  /-- The list that the cursor is bound to. -/
  list : Fin m
  /-- The node that the cursor stands on; none when it has finished. -/
  node : Option (Fin n)
  deriving DecidableEq, Repr

namespace Cursor

variable {d : Direction}

/-- A cursor on the first node of a list in walking order. -/
def start (d : Direction) (p : Pool α n m) (l : Fin m) : Cursor d n m := ⟨l, p.start d l⟩

/-- A cursor on a node that must be on the list. -/
def onNode (d : Direction) (p : Pool α n m) (l : Fin m) (x : Fin n) :
    Except Fault (Cursor d n m) := do
  p.checkMember l x
  return ⟨l, some x⟩

/-- A cursor on a node, if the node is on the list. -/
def onNode? (d : Direction) (p : Pool α n m) (l : Fin m) (x : Fin n) :
    Except Refusal (Cursor d n m) :=
  if p.contains l x then .ok ⟨l, some x⟩ else .error .notAMember

/-- Whether the cursor stands on a node. -/
def isActive (c : Cursor d n m) : Bool := c.node.isSome

/-- The cursor behind the last node. -/
def finish (c : Cursor d n m) : Cursor d n m := { c with node := none }

/-- A cursor at the same place that walks the other way. -/
def flip (c : Cursor d n m) : Cursor d.opposite n m := ⟨c.list, c.node⟩

/-- Moves to the next node in walking order; a finished cursor must not be moved. -/
def advance (p : Pool α n m) (c : Cursor d n m) : Except Fault (Cursor d n m) :=
  match c.node with
  | some x => .ok { c with node := p.follow d x }
  | none => .error .finishedCursor

/-- Removes the node under the cursor and moves to the next one.  A finished cursor removes
nothing. -/
def remove (p : Pool α n m) (c : Cursor d n m) :
    Except Fault (Option (Fin n) × Pool α n m × Cursor d n m) :=
  match c.node with
  | some x => do
    let q ← p.remove c.list x
    return (some x, q, { c with node := p.follow d x })
  | none => .ok (none, p, c)

/-- Inserts a node behind the cursor and moves onto it. -/
def insertAfter (p : Pool α n m) (c : Cursor d n m) (x : Fin n) :
    Except Fault (Pool α n m × Cursor d n m) := do
  let q ← p.insertBeyond d c.list c.node x
  return (q, { c with node := some x })

/-- Inserts a node in front of the cursor, which stays where it is. -/
def insertBefore (p : Pool α n m) (c : Cursor d n m) (x : Fin n) :
    Except Fault (Pool α n m) :=
  p.insertAhead d c.list c.node x

/-- Moves a node and all that is still to be walked behind it to the list `tail`; without a node,
only empties the tail.  The tail must be another list than the cursor's. -/
def cutInto (p : Pool α n m) (c : Cursor d n m) (tail : Fin m) (x : Option (Fin n)) :
    Except Fault (Pool α n m × Cursor d n m) :=
  if c.list = tail then .error .splitIntoItself
  else do
    let q ← match x with
      | some x => p.cutFrom d c.list x tail
      | none => .ok (p.clear tail)
    return (q, ⟨tail, x⟩)

/-- Splits the list in front of the cursor: its node and all that is still to be walked go to the
list `tail`, and the cursor with them. -/
def cutBefore (p : Pool α n m) (c : Cursor d n m) (tail : Fin m) :
    Except Fault (Pool α n m × Cursor d n m) :=
  c.cutInto p tail c.node

/-- Splits the list behind the cursor: all that is still to be walked goes to the list `tail`, and
the cursor advances into it. -/
def cutAfter (p : Pool α n m) (c : Cursor d n m) (tail : Fin m) :
    Except Fault (Pool α n m × Cursor d n m) :=
  c.cutInto p tail (c.node.bind (p.follow d))

/-- Appends the list `tail` to the list `l` and gives a cursor on the first node that came from
`tail`, finished if there was none. -/
def appendAtSeam (p : Pool α n m) (l tail : Fin m) :
    Pool α n m × Cursor .forward n m :=
  (p.append l tail, ⟨l, p.first tail⟩)

end Cursor

end SpanChain
