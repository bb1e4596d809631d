/-
**Sessions with lists and cursors.**

The state of such a session is a pool of nodes and a row of slots for cursors of either direction.

Main definitions:

* `SpanChain.AnyCursor` — a cursor of either direction;
* `SpanChain.ListSession`, `SpanChain.ListSession.new`;
* `SpanChain.ListSession.Step`, `SpanChain.ListSession.step`.
-/

import SpanChain.Session.ListStep

set_option relaxedAutoImplicit false
set_option autoImplicit false

namespace SpanChain

variable {α : Type} {n m k : Nat}

/-! ### Cursors of either direction -/

/-- A cursor together with its direction. -/
structure AnyCursor (n m : Nat) where
  direction : Direction
  cursor : Cursor direction n m
  deriving DecidableEq

/-- Whether two cursors are equal, if they walk the same way. -/
def AnyCursor.equals? (c e : AnyCursor n m) : Option Bool :=
  if c.direction = e.direction then some (c = e) else none

/-! ### The state -/

/-- A pool of nodes and slots for cursors. -/
structure ListSession (α : Type) (n m k : Nat) where
  /-- The nodes and the lists. -/
  pool : Pool α n m
  /-- The slots, each of which may be empty. -/
  slots : Vector (Option (AnyCursor n m)) k

namespace ListSession

/-- A session of unlinked nodes, empty lists and empty slots. -/
def new (data : Vector α n) (m k : Nat) : ListSession α n m k :=
  ⟨Pool.ofData data m, Vector.replicate k none⟩

/-! ### Steps -/

/-- A step through a cursor. -/
inductive CursorStep (n m k : Nat) where
  | advance
  /-- Removes the node under the cursor and moves to the next one. -/
  | remove
  /-- Inserts a node behind the cursor and moves onto it. -/
  | insertAfter (x : Fin n)
  /-- Inserts a node in front of the cursor. -/
  | insertBefore (x : Fin n)
  /-- Splits the list in front of the cursor. -/
  | cutBefore (tail : Fin m)
  /-- Splits the list behind the cursor. -/
  | cutAfter (tail : Fin m)
  /-- Moves behind the last node. -/
  | finish
  /-- Puts a cursor that walks the other way into a slot. -/
  | flip (target : Fin k)
  | copy (target : Fin k)
  /-- Compares with the cursor in a slot, which must walk the same way. -/
  | equals (other : Fin k)
  | isBoundTo (l : Fin m)
  | isActive
  | node
  | text

/-- A step of a session.  A step that makes a new cursor may name no slot; the cursor is made all
the same, so that a fault or a refusal comes first. -/
inductive Step (α : Type) (n m k : Nat) where
  | edit (e : ListEdit n m)
  | query (q : ListQuery n m)
  /-- Inserts the nodes with numbers from `start` up to `stop`, which is left out. -/
  | pushRange (l : Fin m) (start stop : Nat)
  /-- What the nodes of a list carry. -/
  | values (l : Fin m)
  | datum (x : Fin n)
  | setDatum (x : Fin n) (d : α)
  /-- A pair of links of its own, copied and then changed. -/
  | linkPair (next prev : Option (Fin n))
  /-- A new cursor at the start of a list. -/
  | start (slot : Option (Fin k)) (d : Direction) (l : Fin m)
  /-- A new cursor on a node, which must be on the list. -/
  | onNode (slot : Option (Fin k)) (d : Direction) (l : Fin m) (x : Fin n)
  /-- A new cursor on a node, if it is on the list. -/
  | tryOnNode (slot : Option (Fin k)) (d : Direction) (l : Fin m) (x : Fin n)
  | through (slot : Fin k) (s : CursorStep n m k)
  /-- Appends a list to another and moves a cursor, if given, to the seam. -/
  | appendAtSeam (l tail : Fin m) (slot : Option (Fin k))
  /-- A step that cannot be understood. -/
  | senseless

variable (s : ListSession α n m k)

/-- The session with another pool. -/
def setPool (p : Pool α n m) : ListSession α n m k := { s with pool := p }

/-- The outcome with nothing changed. -/
def answer (r : Reply α n) : Outcome α n (ListSession α n m k) := ⟨r, s, []⟩

/-- The outcome with another pool. -/
def withPool (r : Reply α n × Pool α n m) : Outcome α n (ListSession α n m k) :=
  ⟨r.1, s.setPool r.2, []⟩

/-- The session with a cursor in a slot. -/
def put (slot : Fin k) {d : Direction} (c : Cursor d n m) : ListSession α n m k :=
  { s with slots := s.slots.set slot (some ⟨d, c⟩) slot.isLt }

section Lemmas

variable {s} {slot i : Fin k} {d e : Direction} {c : Cursor d n m} {c' : Cursor e n m}

@[simp] theorem pool_put : (s.put slot c).pool = s.pool := rfl

@[simp] theorem slots_put_self : (s.put slot c).slots.get slot = some ⟨d, c⟩ :=
  Vector.getElem_set_self slot.isLt

theorem slots_put_of_ne (h : i ≠ slot) : (s.put slot c).slots.get i = s.slots.get i :=
  Vector.getElem_set_ne slot.isLt i.isLt fun e => h (Fin.ext e.symm)

/-- A slot that is given the cursor that it holds is as it was. -/
theorem put_of_get (h : s.slots.get slot = some ⟨d, c⟩) : s.put slot c = s := by
  have hset : s.slots.set slot (some ⟨d, c⟩) slot.isLt = s.slots := by
    rw [← h]
    exact Vector.set_getElem_self slot.isLt
  rw [put, hset]

/-- A slot holds the cursor that was put there last. -/
@[simp] theorem put_put : (s.put slot c).put slot c' = s.put slot c' := by
  simp [put]

end Lemmas

/-- The outcome of storing a new cursor in a slot, if there is one. -/
def store (slot : Option (Fin k)) {d : Direction} (c : Cursor d n m) :
    Outcome α n (ListSession α n m k) :=
  match slot with
  | some slot => (s.put slot c).answer .done
  | none => s.answer .invalid

/-- The outcome of a step through a cursor that stands in a slot. -/
def stepThrough (slot : Fin k) {d : Direction} (c : Cursor d n m) :
    CursorStep n m k → Except Fault (Outcome α n (ListSession α n m k))
  | .advance => do
    let c' ← c.advance s.pool
    return (s.put slot c').answer .done
  | .remove => do
    let (x, q, c') ← c.remove s.pool
    return ((s.setPool q).put slot c').answer (.node x)
  | .insertAfter x => do
    let (q, c') ← c.insertAfter s.pool x
    return ((s.setPool q).put slot c').answer .done
  | .insertBefore x => do
    let q ← c.insertBefore s.pool x
    return s.withPool (.done, q)
  | .cutBefore tail => do
    let (q, c') ← c.cutBefore s.pool tail
    return ((s.setPool q).put slot c').answer .done
  | .cutAfter tail => do
    let (q, c') ← c.cutAfter s.pool tail
    return ((s.setPool q).put slot c').answer .done
  | .finish => .ok ((s.put slot c.finish).answer .done)
  | .flip target => .ok ((s.put target c.flip).answer .done)
  | .copy target => .ok ((s.put target c).answer .done)
  | .equals other =>
    .ok (s.answer (((s.slots.get other).bind (AnyCursor.equals? ⟨d, c⟩)).elim .invalid .flag))
  | .isBoundTo l => .ok (s.answer (.flag (c.list = l)))
  | .isActive => .ok (s.answer (.flag c.isActive))
  | .node => .ok (s.answer (.node c.node))
  | .text => .ok (s.answer (.text c.text))

/-- The outcome of a step. -/
def step : Step α n m k → Except Fault (Outcome α n (ListSession α n m k))
  | .edit e => s.withPool <$> e.apply s.pool
  | .query q => .ok (s.answer (q.answer s.pool))
  | .pushRange l start stop => s.withPool <$> s.pool.pushRange l start (stop - start)
  | .values l => .ok (s.answer (.data ((s.pool.values l).map some)))
  | .datum x => .ok (s.answer (.datum (s.pool.data x)))
  | .setDatum x d => .ok (s.withPool (.done, s.pool.setData x d))
  | .linkPair next prev => .ok (s.answer (.linkPair ⟨next, prev⟩ ⟨none, prev⟩))
  | .start slot d l => .ok (s.store slot (Cursor.start d s.pool l))
  | .onNode slot d l x => do
    let c ← Cursor.onNode d s.pool l x
    return s.store slot c
  | .tryOnNode slot d l x =>
    match Cursor.onNode? d s.pool l x with
    | .ok c => .ok (s.store slot c)
    | .error r => .ok (s.answer (.refused r))
  | .through slot t =>
    match s.slots.get slot with
    | some c => s.stepThrough slot c.cursor t
    | none => .ok (s.answer .invalid)
  | .appendAtSeam l tail slot =>
    if l = tail then .ok (s.answer .invalid)
    else
      match slot with
      | none => .ok (s.withPool (.done, s.pool.append l tail))
      | some slot =>
        match s.slots.get slot with
        | some ⟨.forward, _⟩ =>
          let (q, c) := Cursor.appendAtSeam s.pool l tail
          .ok (((s.setPool q).put slot c).answer .done)
        | _ => .ok (s.answer .invalid)
  | .senseless => .ok (s.answer .invalid)

end ListSession

end SpanChain
