/-
**Walking a list from both ends.**

A walk remembers only the next node from the front and the next node from the back.  It closes
when it hands out the node at which both have met; if a link on its way leads nowhere, the end that
followed it stops there.

Main definitions:

* `SpanChain.Walk`, `SpanChain.Pool.walk`;
* `SpanChain.Walk.next`, `SpanChain.Walk.nextBack` — one node from either end;
* `SpanChain.Walk.run` — a word of such calls;
* `SpanChain.Walk.take`, `SpanChain.Walk.takeBack` — up to `k` nodes from one end;
* `SpanChain.Pool.members` — the nodes of a list, front to back;
* `SpanChain.Pool.contains`, `SpanChain.Pool.count`, `SpanChain.Pool.values`.

The way of a walk from the front is fixed by the node it stands on.  So a walk that is still open
after as many steps as the pool has nodes has come to a node twice and never closes; all nodes
that it will ever meet are among those steps, and `members` stops there.
-/

import SpanChain.Pool.Basic

set_option relaxedAutoImplicit false
set_option autoImplicit false

namespace SpanChain

variable {α : Type} {n m : Nat}

/-- One of the two ends of a walk. -/
inductive Side where
  /-- The end that moves from the first node on. -/
  | front
  /-- The end that moves from the last node on. -/
  | back
  deriving DecidableEq, Repr

/-- A walk over a list from both ends. -/
structure Walk (n : Nat) where
  /-- The next node from the front. -/
  front : Option (Fin n)
  /-- The next node from the back. -/
  back : Option (Fin n)
  deriving DecidableEq, Repr

/-- The walk over a whole list. -/
def Pool.walk (p : Pool α n m) (l : Fin m) : Walk n := ⟨p.first l, p.last l⟩

namespace Walk

/-- The walk with nothing left. -/
def closed : Walk n := ⟨none, none⟩

/-- Takes one node from the front. -/
def next (p : Pool α n m) : Walk n → Option (Fin n) × Walk n
  | ⟨none, back⟩ => (none, ⟨none, back⟩)
  | ⟨some x, back⟩ => (some x, if back = some x then closed else ⟨p.next x, back⟩)

/-- Takes one node from the back. -/
def nextBack (p : Pool α n m) : Walk n → Option (Fin n) × Walk n
  | ⟨front, none⟩ => (none, ⟨front, none⟩)
  | ⟨front, some x⟩ => (some x, if front = some x then closed else ⟨front, p.prev x⟩)

section Lemmas

variable (p : Pool α n m) (x : Fin n) (y : Option (Fin n))

@[simp] theorem next_none : next p ⟨none, y⟩ = (none, ⟨none, y⟩) := rfl

@[simp] theorem next_some :
    next p ⟨some x, y⟩ = (some x, if y = some x then closed else ⟨p.next x, y⟩) := rfl

@[simp] theorem nextBack_none : nextBack p ⟨y, none⟩ = (none, ⟨y, none⟩) := rfl

@[simp] theorem nextBack_some :
    nextBack p ⟨y, some x⟩ = (some x, if y = some x then closed else ⟨y, p.prev x⟩) := rfl

end Lemmas

/-- Takes one node from the given end. -/
def pull (p : Pool α n m) (w : Walk n) : Side → Option (Fin n) × Walk n
  | .front => next p w
  | .back => nextBack p w

/-- The answers to a word of calls. -/
def run (p : Pool α n m) (w : Walk n) : List Side → List (Option (Fin n))
  | [] => []
  | s :: word => (w.pull p s).1 :: run p (w.pull p s).2 word

/-- Up to `k` nodes from the front. -/
def take (p : Pool α n m) (w : Walk n) : Nat → List (Fin n)
  | 0 => []
  | k + 1 =>
    match next p w with
    | (none, _) => []
    | (some x, w') => x :: take p w' k

/-- Up to `k` nodes from the back. -/
def takeBack (p : Pool α n m) (w : Walk n) : Nat → List (Fin n)
  | 0 => []
  | k + 1 =>
    match nextBack p w with
    | (none, _) => []
    | (some x, w') => x :: takeBack p w' k

/-- What is left of a walk after `k` nodes from the front. -/
def drop (p : Pool α n m) (w : Walk n) : Nat → Walk n
  | 0 => w
  | k + 1 => drop p (next p w).2 k

end Walk

namespace Pool

/-- The nodes of a list, front to back. -/
def members (p : Pool α n m) (l : Fin m) : List (Fin n) := (p.walk l).take p n

/-- Whether a node is on a list. -/
def contains (p : Pool α n m) (l : Fin m) (x : Fin n) : Bool := (p.members l).contains x

/-- The number of nodes of a list. -/
def count (p : Pool α n m) (l : Fin m) : Nat := (p.members l).length

/-- What the nodes of a list carry, front to back. -/
def values (p : Pool α n m) (l : Fin m) : List α := (p.members l).map p.data

end Pool

end SpanChain
