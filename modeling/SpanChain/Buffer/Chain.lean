/-
**Chains of spans.**

A list whose nodes carry spans is read as one byte sequence: the bytes of its spans, front to back.

Main definitions:

* `SpanChain.Pool.len` — the length of a node's span;
* `SpanChain.Pool.renew` — a node made to describe another span;
* `SpanChain.Pool.spans` — the spans of a list, front to back;
* `SpanChain.Pool.capacity` — the number of bytes of a list;
* `SpanChain.Pool.addresses` — the byte addresses that a list describes.
-/

import SpanChain.Memory
import SpanChain.Pool.Edit

set_option relaxedAutoImplicit false
set_option autoImplicit false

namespace SpanChain

variable {n m : Nat}

namespace Pool

/-- The length of the span that a node carries. -/
def len (p : Pool Span n m) (x : Fin n) : Nat := (p.data x).len

/-- Makes a node that is on no list describe a span. -/
def renew (p : Pool Span n m) (x : Fin n) (s : Span) : Pool Span n m :=
  (p.unlink x).setData x s

/-- The spans of a list, front to back. -/
def spans (p : Pool Span n m) (l : Fin m) : List Span := p.values l

/-- The byte addresses that a list describes, in order. -/
def addresses (p : Pool Span n m) (l : Fin m) : List Address :=
  (p.spans l).flatMap Span.addresses

/-- The number of bytes that a list describes, a fault where it is no size.  A walk that never
closes has no sum. -/
def capacity (p : Pool Span n m) (l : Fin m) : Except Fault Nat :=
  if (Walk.next p ((p.walk l).drop p n)).1.isSome then .error .addOverflow
  else ((p.spans l).map Span.len).foldlM addSize 0

end Pool

end SpanChain
