/-
**Sessions with chains of spans.**

The state of such a session is a pool of nodes that carry spans, the memory that the spans describe,
and a row of slots for byte cursors.

Main definitions:

* `SpanChain.BufferSession`, `SpanChain.BufferSession.new`;
* `SpanChain.BufferSession.Step`, `SpanChain.BufferSession.step`;
* `SpanChain.Pool.build` — nodes made to describe consecutive parts of the memory.
-/

import SpanChain.Buffer.Copy
import SpanChain.Session.ListStep

set_option relaxedAutoImplicit false
set_option autoImplicit false

namespace SpanChain

variable {n m k : Nat}

/-! ### Building a chain -/

/-- The span of `len` bytes from an offset of the memory on, if they lie inside. -/
def Memory.slice? (mem : Memory) (offset len : Nat) : Option Span :=
  if h : offset + len ≤ mem.bytes.size ∧ len < sizeLimit then
    some ⟨.inMemory (UInt64.ofNat offset), len, h.2⟩
  else none

/-- Makes the nodes with the numbers from `i` on describe consecutive parts of the memory, with the
given lengths and from an offset on, and puts each of them behind all others of a list.  It stops
as invalid where there is no such node or no such part, and keeps what was built so far. -/
def Pool.build (p : Pool Span n m) (mem : Memory) (l : Fin m) (i offset : Nat) :
    List Nat → Except Fault (Reply Span n × Pool Span n m)
  | [] => .ok (.done, p)
  | len :: lens =>
    if h : i < n then
      match mem.slice? offset len with
      | some s => do
        let q ← (p.renew ⟨i, h⟩ s).pushBack l ⟨i, h⟩
        q.build mem l (i + 1) (offset + len) lens
      | none => .ok (.invalid, p)
    else .ok (.invalid, p)

/-! ### The state -/

/-- A pool of spans, the memory they describe and slots for cursors. -/
structure BufferSession (n m k : Nat) where
  /-- The nodes and the lists. -/
  pool : Pool Span n m
  memory : Memory
  /-- The slots, each of which may be empty. -/
  slots : Vector (Option (ByteCursor n m)) k

namespace BufferSession

/-- A session of unlinked nodes, empty lists and empty slots. -/
def new (spans : Vector Span n) (memory : Memory) (m k : Nat) : BufferSession n m k :=
  ⟨Pool.ofData spans m, memory, Vector.replicate k none⟩

/-! ### Steps -/

/-- A step through a byte cursor. -/
inductive CursorStep (n m k : Nat) where
  | isActive
  | node
  | offset
  /-- Moves behind the last byte. -/
  | finish
  /-- What is left of the current span. -/
  | rest
  /-- The number of bytes up to the end. -/
  | remaining
  | text
  | isBoundTo (l : Fin m)
  | advance (count : Nat)
  | writeByte (b : UInt8)
  | readByte
  | write (row : List UInt8)
  /-- Reads many bytes over a list. -/
  | copyInto (dst : List UInt8)
  /-- Copies a number of bytes to the cursor in another slot. -/
  | copyTo (dst : Fin k) (count : Nat)
  /-- Splits the chain at the cursor. -/
  | splitAt (tail : Fin m) (extra : Option (Fin n))
  /-- Joins the cursor's span to the one in front of it. -/
  | joinBack
  | copy (target : Fin k)
  /-- Compares with the cursor in a slot. -/
  | samePlace (other : Fin k)

/-- A step of a session. -/
inductive Step (n m k : Nat) where
  | edit (e : ListEdit n m)
  | query (q : ListQuery n m)
  /-- Inserts the nodes with numbers from `start` up to `stop`, which is left out. -/
  | pushRange (l : Fin m) (start stop : Nat)
  /-- The number of bytes of a chain. -/
  | capacity (l : Fin m)
  | chainText (l : Fin m)
  /-- The spans that a walk over a list gives for a word of calls. -/
  | spans (l : Fin m) (word : List Side)
  /-- Builds a chain over consecutive parts of the memory. -/
  | build (l : Fin m) (first offset : Nat) (lens : List Nat)
  /-- Makes a node that is on no list describe a span. -/
  | renew (x : Fin n) (s : Span)
  /-- Makes a node describe a span and leaves its links. -/
  | setSpan (x : Fin n) (s : Span)
  | described (x : Fin n)
  | nodeText (x : Fin n)
  /-- A new cursor at the start of a list; without a slot it is not kept. -/
  | start (slot : Option (Fin k)) (l : Fin m)
  | through (slot : Fin k) (s : CursorStep n m k)
  /-- Appends a list to another and moves a cursor, if given, to the seam. -/
  | appendAtSeam (l tail : Fin m) (slot : Option (Fin k))
  /-- A step that cannot be understood. -/
  | senseless

variable (s : BufferSession n m k)

/-- The session with another pool. -/
def setPool (p : Pool Span n m) : BufferSession n m k := { s with pool := p }

/-- The session with another memory. -/
def setMemory (mem : Memory) : BufferSession n m k := { s with memory := mem }

/-- The outcome with nothing changed. -/
def answer (r : Reply Span n) : Outcome Span n (BufferSession n m k) := ⟨r, s, []⟩

/-- The outcome with another pool. -/
def withPool (r : Reply Span n × Pool Span n m) : Outcome Span n (BufferSession n m k) :=
  ⟨r.1, s.setPool r.2, []⟩

/-- The session with a cursor in a slot. -/
def put (slot : Fin k) (c : ByteCursor n m) : BufferSession n m k :=
  { s with slots := s.slots.set slot (some c) slot.isLt }

section Lemmas

variable {s} {slot i : Fin k} {c c' : ByteCursor n m}

@[simp] theorem pool_put : (s.put slot c).pool = s.pool := rfl

@[simp] theorem memory_put : (s.put slot c).memory = s.memory := rfl

@[simp] theorem slots_put_self : (s.put slot c).slots.get slot = some c :=
  Vector.getElem_set_self slot.isLt

theorem slots_put_of_ne (h : i ≠ slot) : (s.put slot c).slots.get i = s.slots.get i :=
  Vector.getElem_set_ne slot.isLt i.isLt fun e => h (Fin.ext e.symm)

/-- A slot that is given the cursor that it holds is as it was. -/
theorem put_of_get (h : s.slots.get slot = some c) : s.put slot c = s := by
  have hset : s.slots.set slot (some c) slot.isLt = s.slots := by
    rw [← h]
    exact Vector.set_getElem_self slot.isLt
  rw [put, hset]

/-- A slot holds the cursor that was put there last. -/
@[simp] theorem put_put : (s.put slot c).put slot c' = s.put slot c' := by
  simp [put]

/-- Two slots are given their cursors in either order. -/
theorem put_comm (hne : i ≠ slot) (c e : ByteCursor n m) :
    (s.put slot e).put i c = (s.put i c).put slot e := by
  have hval : slot.val ≠ i.val := fun h => hne (Fin.ext h.symm)
  simp only [put, BufferSession.mk.injEq, true_and]
  exact Vector.set_comm _ _ hval

end Lemmas

/-- The events of an edit that was carried out. -/
def editEvents (e : ListEdit n m) : List (Event n) :=
  match e with
  | .append l tail => if l = tail then [] else [s.pool.appendEvent l tail]
  | _ => []

/-- The outcome of a split at a cursor that stands in a slot. -/
def splitAt (slot : Fin k) (c : ByteCursor n m) (tail : Fin m) (extra : Option (Fin n)) :
    Except Fault (Outcome Span n (BufferSession n m k)) := do
  let events := [c.splitEvent s.pool extra]
  match ← c.splitAt s.pool tail extra with
  | .ok (split, q, c') => return ⟨.split split, (s.setPool q).put slot c', events⟩
  | .error r => return ⟨.refused r, s, events⟩

/-- The outcome of a step through a cursor that stands in a slot. -/
def stepThrough (slot : Fin k) (c : ByteCursor n m) :
    CursorStep n m k → Except Fault (Outcome Span n (BufferSession n m k))
  | .isActive => .ok (s.answer (.flag c.isActive))
  | .node => .ok (s.answer (.node c.node))
  | .offset => .ok (s.answer (.size c.offset))
  | .finish => .ok ((s.put slot c.finish).answer .done)
  | .rest => (fun r => s.answer (.datum r)) <$> c.rest s.pool
  | .remaining => (fun r => s.answer (.size r)) <$> c.remaining s.pool
  | .text => .ok (s.answer (.text c.text))
  | .isBoundTo l => .ok (s.answer (.flag (c.list = l)))
  | .advance count => do
    let (c', moved) ← c.advance s.pool count
    return (s.put slot c').answer (.size moved)
  | .writeByte b => do
    let (count, mem, c') ← c.writeByte s.pool s.memory b
    return ((s.setMemory mem).put slot c').answer (.wrote count mem)
  | .readByte => do
    let (b, c') ← c.readByte s.pool s.memory
    return (s.put slot c').answer (.byte b)
  | .write row => do
    let (count, mem, c') ← c.write s.pool s.memory row
    return ((s.setMemory mem).put slot c').answer (.wrote count mem)
  | .copyInto dst => do
    let (count, bytes, c') ← c.copyInto s.pool s.memory dst
    return (s.put slot c').answer (.read count bytes)
  | .copyTo dst count =>
    match s.slots.get dst with
    | some e =>
      if slot = dst then .ok (s.answer .invalid)
      else do
        let (copied, mem, c', e') ← c.copyTo s.pool s.memory e count
        return (((s.setMemory mem).put slot c').put dst e').answer (.wrote copied mem)
    | none => .ok (s.answer .invalid)
  | .splitAt tail extra => s.splitAt slot c tail extra
  | .joinBack => do
    let (x, q, c') ← c.joinBack s.pool
    return ⟨.node x, (s.setPool q).put slot c', (c.joinEvent s.pool).toList⟩
  | .copy target => .ok ((s.put target c).answer .done)
  | .samePlace other =>
    .ok (s.answer ((s.slots.get other).elim .invalid fun e => .flag (c.samePlace e)))

/-- The outcome of a step. -/
def step : Step n m k → Except Fault (Outcome Span n (BufferSession n m k))
  | .edit e => do
    let r ← e.apply s.pool
    return { s.withPool r with events := s.editEvents e }
  | .query q => .ok (s.answer (q.answer s.pool))
  | .pushRange l start stop => s.withPool <$> s.pool.pushRange l start (stop - start)
  | .capacity l => (fun r => s.answer (.size r)) <$> s.pool.capacity l
  | .chainText l => .ok (s.answer (.text (s.pool.chainText l)))
  | .spans l word =>
    .ok (s.answer (.data (((s.pool.walk l).run s.pool word).map (Option.map s.pool.data))))
  | .build l first offset lens => s.withPool <$> s.pool.build s.memory l first offset lens
  | .renew x span => .ok (s.withPool (.done, s.pool.renew x span))
  | .setSpan x span => .ok (s.withPool (.done, s.pool.setData x span))
  | .described x => .ok (s.answer (.described (s.pool.data x)))
  | .nodeText x => .ok (s.answer (.text (s.pool.nodeText x)))
  | .start slot l =>
    .ok (match slot with
      | some slot => (s.put slot (ByteCursor.start s.pool l)).answer .done
      | none => s.answer .invalid)
  | .through slot t =>
    match s.slots.get slot with
    | some c => s.stepThrough slot c t
    | none => .ok (s.answer .invalid)
  | .appendAtSeam l tail slot =>
    if l = tail then .ok (s.answer .invalid)
    else
      let events := [s.pool.appendEvent l tail]
      match slot with
      | none => .ok ⟨.done, s.setPool (s.pool.append l tail), events⟩
      | some slot =>
        match s.slots.get slot with
        | some _ =>
          let (q, c) := ByteCursor.appendAtSeam s.pool l tail
          .ok ⟨.done, (s.setPool q).put slot c, events⟩
        | none => .ok (s.answer .invalid)
  | .senseless => .ok (s.answer .invalid)

end BufferSession

end SpanChain
