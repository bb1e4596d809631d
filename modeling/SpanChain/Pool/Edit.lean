/-
**Changing lists.**

Every operation here moves a bounded number of links.  The checks come first: an anchor, or a node
to be removed or cut at, must be on the list it is used with, and a node cannot be linked beside
itself.

Main definitions:

* `SpanChain.Pool.linkBetween` — the one place where a node is linked in;
* `SpanChain.Pool.insertAfter`, `SpanChain.Pool.insertBefore`, `SpanChain.Pool.pushFront`,
  `SpanChain.Pool.pushBack`;
* `SpanChain.Pool.remove`, `SpanChain.Pool.remove?`, `SpanChain.Pool.popFront`,
  `SpanChain.Pool.popBack`;
* `SpanChain.Pool.append` — one list behind another;
* `SpanChain.Pool.cutBefore`, `SpanChain.Pool.cutThrough` — one list made two.
-/

import SpanChain.Fault
import SpanChain.Pool.Walk

set_option relaxedAutoImplicit false
set_option autoImplicit false

namespace SpanChain

variable {α : Type} {n m : Nat}

namespace Pool

/-- The check that a node is on a list. -/
def checkMember (p : Pool α n m) (l : Fin m) (x : Fin n) : Except Fault Unit :=
  if p.contains l x then .ok () else .error .notMember

/-- The check that a position of a list is one: the gap always is, a node if it is a member. -/
def checkAnchor (p : Pool α n m) (l : Fin m) : Option (Fin n) → Except Fault Unit
  | some x => p.checkMember l x
  | none => .ok ()

/-! ### Insertion -/

/-- Links a node between two neighbouring positions of a list. -/
def linkBetween (p : Pool α n m) (l : Fin m) (left : Option (Fin n)) (x : Fin n)
    (right : Option (Fin n)) : Except Fault (Pool α n m) :=
  if some x = left ∨ some x = right then .error .alreadyLinked
  else
    .ok ((((p.setPrev x left).setNext x right).setAfter l left (some x)).setBefore l right (some x))

/-- Inserts a node right behind a position of a list. -/
def insertAfter (p : Pool α n m) (l : Fin m) (anchor : Option (Fin n)) (x : Fin n) :
    Except Fault (Pool α n m) := do
  p.checkAnchor l anchor
  p.linkBetween l anchor x (p.after l anchor)

/-- Inserts a node right in front of a position of a list. -/
def insertBefore (p : Pool α n m) (l : Fin m) (anchor : Option (Fin n)) (x : Fin n) :
    Except Fault (Pool α n m) := do
  p.checkAnchor l anchor
  p.linkBetween l (p.before l anchor) x anchor

/-- Inserts a node in front of all others. -/
def pushFront (p : Pool α n m) (l : Fin m) (x : Fin n) : Except Fault (Pool α n m) :=
  p.insertAfter l none x

/-- Inserts a node behind all others. -/
def pushBack (p : Pool α n m) (l : Fin m) (x : Fin n) : Except Fault (Pool α n m) :=
  p.insertBefore l none x

/-! ### Removal -/

/-- Joins the neighbours of a node and clears its links. -/
def bypass (p : Pool α n m) (l : Fin m) (x : Fin n) : Pool α n m :=
  ((p.setAfter l (p.prev x) (p.next x)).setBefore l (p.next x) (p.prev x)).unlink x

/-- Removes a node from the list it is on. -/
def remove (p : Pool α n m) (l : Fin m) (x : Fin n) : Except Fault (Pool α n m) := do
  p.checkMember l x
  return p.bypass l x

/-- Removes a node from a list, or declines if it is not there. -/
def remove? (p : Pool α n m) (l : Fin m) (x : Fin n) :
    Except Fault (Except Refusal (Pool α n m)) :=
  if p.contains l x then .ok <$> p.remove l x else .ok (.error .notAMember)

/-- Removes the first node, if any. -/
def popFront (p : Pool α n m) (l : Fin m) : Except Fault (Option (Fin n) × Pool α n m) :=
  match p.first l with
  | some x => (some x, ·) <$> p.remove l x
  | none => .ok (none, p)

/-- Removes the last node, if any. -/
def popBack (p : Pool α n m) (l : Fin m) : Except Fault (Option (Fin n) × Pool α n m) :=
  match p.last l with
  | some x => (some x, ·) <$> p.remove l x
  | none => .ok (none, p)

/-! ### Joining and cutting -/

/-- Moves all nodes of the list `tail` to the back of the list `l`. -/
def append (p : Pool α n m) (l tail : Fin m) : Pool α n m :=
  match p.first tail, p.last tail with
  | some x, some y =>
    let joined := match p.last l with
      | some z => (p.setNext z (some x)).setPrev x (some z)
      | none => p.setFirst l (some x)
    (joined.setLast l (some y)).clear tail
  | _, _ => p

/-- Moves a node of the list `l` and all behind it to the list `tail`, which forgets what it had.
The tail ends where `l` ended. -/
def cutBefore (p : Pool α n m) (l : Fin m) (x : Fin n) (tail : Fin m) :
    Except Fault (Pool α n m) := do
  p.checkMember l x
  let kept := match p.prev x with
    | some y => (p.setNext y none).setLast l (some y)
    | none => p.clear l
  return (kept.setPrev x none).setEnds tail ⟨some x, p.last l⟩

/-- Moves all nodes of the list `l` up to a node, and this one, to the list `front`, which forgets
what it had.  The front starts where `l` started. -/
def cutThrough (p : Pool α n m) (l : Fin m) (x : Fin n) (front : Fin m) :
    Except Fault (Pool α n m) := do
  p.checkMember l x
  let kept := match p.next x with
    | some y => (p.setPrev y none).setFirst l (some y)
    | none => p.clear l
  return (kept.setNext x none).setEnds front ⟨p.first l, some x⟩

end Pool

end SpanChain
