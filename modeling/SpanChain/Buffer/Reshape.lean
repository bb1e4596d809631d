/-
**Splitting, merging and joining chains of spans.**

A chain can be split at any byte.  Where the cut lies inside a span, the node of this span keeps
the first half and a spare node takes the second; joining the two halves again gives the spare node
back.

Main definitions:

* `SpanChain.Split`, `SpanChain.ByteCursor.splitAt` — splitting at the cursor;
* `SpanChain.ByteCursor.appendAtSeam` — appending a chain, with a cursor on its first byte;
* `SpanChain.ByteCursor.joint`, `SpanChain.ByteCursor.joinBack` — undoing a cut inside a span;
* `SpanChain.Event` — what these operations report, and `SpanChain.Pool.appendEvent`,
  `SpanChain.ByteCursor.splitEvent`, `SpanChain.ByteCursor.joinEvent` — when they do.
-/

import SpanChain.Buffer.ByteCursor

set_option relaxedAutoImplicit false
set_option autoImplicit false

namespace SpanChain

variable {n m : Nat}

/-! ### Splitting at a byte -/

/-- How a chain was split. -/
inductive Split (n : Nat) where
  /-- Between two nodes: the spare node was not needed and is handed back. -/
  | aligned (extra : Option (Fin n))
  /-- Inside a span: the spare node now carries the second half. -/
  | unaligned
  deriving DecidableEq, Repr

/-- Whether the spare node was used. -/
def Split.usedExtra : Split n → Bool
  | .aligned _ => false
  | .unaligned => true

/-- The spare node that a split hands back. -/
def Split.handedBack : Split n → Option (Fin n)
  | .aligned extra => extra
  | .unaligned => none

namespace ByteCursor

/-- The node in whose span the cursor stands behind the first byte; none where the cursor stands
between two nodes or has finished. -/
def inside (c : ByteCursor n m) : Option (Fin n) := if 0 < c.offset then c.node else none

/-- Splits the span of node `x` at the cursor and puts the spare node `e` for its second half at
the front of the list `tail`. -/
def splitInside (p : Pool Span n m) (c : ByteCursor n m) (tail : Fin m) (x e : Fin n) :
    Except Fault (Pool Span n m × ByteCursor n m) := do
  let head ← (p.data x).takeFirst c.offset
  let back ← (p.data x).dropFirst c.offset
  let q := (p.setData x head).renew e back
  let (q, place) ← c.place.insertAfter q e
  let (q, place) ← place.cutBefore q tail
  return (q, ⟨place, 0⟩)

/-- Splits a chain at the cursor.  The bytes in front of the cursor stay, the others go to the list
`tail`, and the cursor with them.  A cut inside a span needs the spare node; without one the split
is declined. -/
def splitAt (p : Pool Span n m) (c : ByteCursor n m) (tail : Fin m) (extra : Option (Fin n)) :
    Except Fault (Except Refusal (Split n × Pool Span n m × ByteCursor n m)) :=
  match c.inside, extra with
  | some x, some e => do
    let (q, c') ← c.splitInside p tail x e
    return .ok (.unaligned, q, c')
  | some _, none => .ok (.error .missingExtraNode)
  | none, _ => do
    let (q, place) ← c.place.cutBefore p tail
    return .ok (.aligned extra, q, { c with place := place })

/-! ### Joining chains -/

/-- Appends the list `tail` to the list `l` and gives a cursor on the first byte that came from
`tail`, finished if there was none. -/
def appendAtSeam (p : Pool Span n m) (l tail : Fin m) : Pool Span n m × ByteCursor n m :=
  let (q, place) := Cursor.appendAtSeam p l tail
  (q, arrive q place.list place.node)

/-- The node in front of the cursor's node and the cursor's node itself, if the span of the first
ends where the span of the second starts. -/
def joint (p : Pool Span n m) (c : ByteCursor n m) : Option (Fin n × Fin n) := do
  let x ← c.node
  let y ← p.prev x
  if (p.data y).meets (p.data x) then some (y, x) else none

/-- Joins the cursor's span to the one in front of it, if the two meet.  The node of the first
grows over both spans, the node of the second is removed and handed back, and the cursor stays at
the same byte. -/
def joinBack (p : Pool Span n m) (c : ByteCursor n m) :
    Except Fault (Option (Fin n) × Pool Span n m × ByteCursor n m) :=
  match c.joint p with
  | none => .ok (none, p, c)
  | some (y, x) =>
    let front := p.data y
    if h : front.len + p.len x < sizeLimit then do
      let (removed, q, _) ← c.place.remove (p.setData y ⟨front.base, front.len + p.len x, h⟩)
      let offset ← addSize c.offset front.len
      return (removed, q, ⟨⟨c.list, some y⟩, offset⟩)
    else .error .addOverflow

end ByteCursor

/-! ### Events -/

/-- What the operations on chains report. -/
inductive Event (n : Nat) where
  /-- Two chains are appended: the last node of the first and the first node of the second. -/
  | appending (head tail : Option (Fin n))
  /-- A chain is split in front of a node, or at its end. -/
  | splitBetween (node : Option (Fin n))
  /-- A split inside a span is declined for want of a spare node. -/
  | splitDeclined (offset : Nat)
  /-- A span is split at an offset. -/
  | splitInside (span : Span) (offset : Nat)
  /-- A span has grown over the next one, which had so many bytes. -/
  | joined (front : Span) (added : Nat)
  deriving DecidableEq, Repr

/-- The report of appending the list `tail` to the list `l`. -/
def Pool.appendEvent (p : Pool Span n m) (l tail : Fin m) : Event n :=
  .appending (p.last l) (p.first tail)

namespace ByteCursor

/-- The report of a split at the cursor. -/
def splitEvent (p : Pool Span n m) (c : ByteCursor n m) (extra : Option (Fin n)) : Event n :=
  match c.inside, extra with
  | some x, some _ => .splitInside (p.data x) c.offset
  | some _, none => .splitDeclined c.offset
  | none, _ => .splitBetween c.node

/-- The report of joining the cursor's span to the one in front of it. -/
def joinEvent (p : Pool Span n m) (c : ByteCursor n m) : Option (Event n) :=
  (c.joint p).map fun (y, x) => .joined (p.data y) (p.len x)

end ByteCursor

end SpanChain
