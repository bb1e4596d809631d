/-
**Steps on lists.**

The steps that work on lists alone, whatever their nodes carry: edits, which change the pool, and
questions, which do not.

Main definitions:

* `SpanChain.ListEdit`, `SpanChain.ListEdit.apply` — the edits and their effect;
* `SpanChain.ListQuery`, `SpanChain.ListQuery.answer` — the questions and their answers;
* `SpanChain.Pool.pushRange` — nodes with consecutive numbers, one by one.
-/

import SpanChain.Session.Reply
import SpanChain.Text

set_option relaxedAutoImplicit false
set_option autoImplicit false

namespace SpanChain

variable {α : Type} {n m : Nat}

/-! ### Edits -/

/-- A change of lists. -/
inductive ListEdit (n m : Nat) where
  /-- Forgets all nodes of a list. -/
  | clear (l : Fin m)
  | pushFront (l : Fin m) (x : Fin n)
  | pushBack (l : Fin m) (x : Fin n)
  | insertAfter (l : Fin m) (anchor : Option (Fin n)) (x : Fin n)
  | insertBefore (l : Fin m) (anchor : Option (Fin n)) (x : Fin n)
  | popFront (l : Fin m)
  | popBack (l : Fin m)
  /-- Removes a node, which must be on the list. -/
  | remove (l : Fin m) (x : Fin n)
  /-- Removes a node if it is on the list. -/
  | tryRemove (l : Fin m) (x : Fin n)
  | swap (l k : Fin m)
  /-- Makes a list describe the chain of another. -/
  | shareEnds (l src : Fin m)
  /-- Moves all nodes of a list to the back of another. -/
  | append (l tail : Fin m)
  /-- Moves a node and all behind it to another list. -/
  | cutBefore (l : Fin m) (x : Fin n) (tail : Fin m)
  /-- Moves a node and all in front of it to another list. -/
  | cutThrough (l : Fin m) (x : Fin n) (front : Fin m)
  | unlink (x : Fin n)
  deriving DecidableEq, Repr

namespace ListEdit

/-- The two lists of an edit that needs two. -/
def lists? : ListEdit n m → Option (Fin m × Fin m)
  | .swap l k | .shareEnds l k | .append l k | .cutBefore l _ k | .cutThrough l _ k => some (l, k)
  | _ => none

/-- Whether an edit names two different lists where it needs two. -/
def isSound (e : ListEdit n m) : Bool :=
  match e.lists? with
  | some (l, k) => l ≠ k
  | none => true

/-- The effect of an edit that is sound. -/
def effect (p : Pool α n m) : ListEdit n m → Except Fault (Reply α n × Pool α n m)
  | .clear l => .ok (.done, p.clear l)
  | .pushFront l x => (.done, ·) <$> p.pushFront l x
  | .pushBack l x => (.done, ·) <$> p.pushBack l x
  | .insertAfter l anchor x => (.done, ·) <$> p.insertAfter l anchor x
  | .insertBefore l anchor x => (.done, ·) <$> p.insertBefore l anchor x
  | .popFront l => (fun (x, q) => (.node x, q)) <$> p.popFront l
  | .popBack l => (fun (x, q) => (.node x, q)) <$> p.popBack l
  | .remove l x => (.node (some x), ·) <$> p.remove l x
  | .tryRemove l x => do
    match ← p.remove? l x with
    | .ok q => return (.node (some x), q)
    | .error r => return (.refused r, p)
  | .swap l k => .ok (.done, p.swap l k)
  | .shareEnds l src => .ok (.done, p.shareEnds l src)
  | .append l tail => .ok (.done, p.append l tail)
  | .cutBefore l x tail => (.done, ·) <$> p.cutBefore l x tail
  | .cutThrough l x front => (.done, ·) <$> p.cutThrough l x front
  | .unlink x => .ok (.done, p.unlink x)

/-- The answer to an edit and the pool after it. -/
def apply (p : Pool α n m) (e : ListEdit n m) : Except Fault (Reply α n × Pool α n m) :=
  if e.isSound then e.effect p else .ok (.invalid, p)

end ListEdit

/-! ### Consecutive insertions -/

/-- Inserts the nodes with the numbers from `i` on, `k` of them, behind all others, one by one.
It stops as invalid at a number that names no node, and keeps what was inserted so far. -/
def Pool.pushRange (p : Pool α n m) (l : Fin m) (i : Nat) :
    Nat → Except Fault (Reply α n × Pool α n m)
  | 0 => .ok (.done, p)
  | k + 1 =>
    if h : i < n then do
      let q ← p.pushBack l ⟨i, h⟩
      q.pushRange l (i + 1) k
    else .ok (.invalid, p)

/-! ### Questions -/

/-- A question about lists. -/
inductive ListQuery (n m : Nat) where
  | isEmpty (l : Fin m)
  | first (l : Fin m)
  | last (l : Fin m)
  | count (l : Fin m)
  | contains (l : Fin m) (x : Fin n)
  /-- The nodes that a walk over a list gives for a word of calls. -/
  | walk (l : Fin m) (word : List Side)
  | links (x : Fin n)
  | text (l : Fin m)
  deriving DecidableEq, Repr

/-- The answer to a question. -/
def ListQuery.answer (p : Pool α n m) : ListQuery n m → Reply α n
  | .isEmpty l => .flag (p.isEmpty l)
  | .first l => .node (p.first l)
  | .last l => .node (p.last l)
  | .count l => .size (p.count l)
  | .contains l x => .flag (p.contains l x)
  | .walk l word => .nodes ((p.walk l).run p word)
  | .links x => .links ⟨p.next x, p.prev x⟩
  | .text l => .text (p.ends l).text

/-! ### What is shown of a list -/

/-- The nodes of a list as a walk gives them, from the front or the back, with room for two more
than the pool has, so that a walk that does not close can be told from one that does. -/
def Pool.shown (p : Pool α n m) (l : Fin m) : Side → List (Fin n)
  | .front => (p.walk l).take p (n + 2)
  | .back => (p.walk l).takeBack p (n + 2)

end SpanChain
