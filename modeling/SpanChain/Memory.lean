/-
**Memory.**

A memory is a row of bytes.  Addresses of the memory's own kind count from its start; every other
address, and every offset beyond the end, lies outside, where reading gives zero and writing does
nothing.

Main definitions:

* `SpanChain.Memory`, `SpanChain.Memory.get`, `SpanChain.Memory.set`;
* `SpanChain.Memory.load`, `SpanChain.Memory.store` — a row of bytes at consecutive addresses;
* `SpanChain.Memory.holds` — all bytes of a span lie inside;
* `SpanChain.Memory.view` — the bytes that a span describes;
* `SpanChain.Memory.pattern` — a memory filled with a sequence of equal differences.

Main results:

* `SpanChain.Memory.get_set` — a write is seen at its address and nowhere else.
-/

import SpanChain.Span

set_option relaxedAutoImplicit false
set_option autoImplicit false

namespace SpanChain

/-- A row of bytes. -/
structure Memory where
  /-- The bytes, in order. -/
  bytes : Array UInt8
  deriving DecidableEq, Repr

namespace Memory

/-- The place of an address in the row of bytes, if it lies inside. -/
def index? (m : Memory) : Address → Option Nat
  | .inMemory i => if i.toNat < m.bytes.size then some i.toNat else none
  | .absolute _ => none

/-- The byte at an address, zero outside of the memory. -/
def get (m : Memory) (a : Address) : UInt8 :=
  match a with
  | .inMemory i => m.bytes.getD i.toNat 0
  | .absolute _ => 0

/-- The memory with one byte replaced, unchanged if the address lies outside. -/
def set (m : Memory) (a : Address) (b : UInt8) : Memory :=
  match a with
  | .inMemory i => ⟨m.bytes.setIfInBounds i.toNat b⟩
  | .absolute _ => m

/-- The `n` bytes from an address on. -/
def load (m : Memory) (a : Address) (n : Nat) : List UInt8 :=
  (List.range n).map fun i => m.get (a + i)

/-- The memory with a row of bytes written from an address on. -/
def store (m : Memory) (a : Address) : List UInt8 → Memory
  | [] => m
  | b :: bs => (m.set a b).store (a + 1) bs

/-- Whether all bytes of a span lie in the memory.  The end of the memory is inside for an empty
span. -/
def holds (m : Memory) (s : Span) : Bool :=
  match s.base with
  | .inMemory i => i.toNat + s.len ≤ m.bytes.size
  | .absolute _ => false

/-- The bytes that a span describes; a span at the null address shows none. -/
def view (m : Memory) (s : Span) : List UInt8 :=
  if s.base.isNull then [] else m.load s.base s.len

/-- The memory with bytes written into a span from index `i` of its view on, as many as fit, and
their number. -/
def overwrite (m : Memory) (s : Span) (i : Nat) (bs : List UInt8) : Memory × Nat :=
  let fitting := if s.base.isNull then [] else bs.take (s.len - i)
  (m.store (s.base + i) fitting, fitting.length)

/-- Several writes into a span, one after the other, and the number of all bytes written. -/
def overwriteAll (m : Memory) (s : Span) : List (Nat × List UInt8) → Memory × Nat
  | [] => (m, 0)
  | (i, bs) :: writes =>
    let (m, count) := m.overwrite s i bs
    let (m, more) := m.overwriteAll s writes
    (m, count + more)

/-- Whether the bytes that a span describes can be looked at: it lies in the memory, or it starts at
the null address and shows none. -/
def shows (m : Memory) (s : Span) : Bool := s.base.isNull || m.holds s

/-- A memory of `len` bytes whose byte `i` is `first + i * step` modulo 256. -/
def pattern (len : Nat) (first step : Int) : Memory :=
  ⟨(Array.range len).map fun i => UInt8.ofInt (first + Int.ofNat i * step)⟩

/-! ### Reading after writing -/

@[simp] theorem size_set (m : Memory) (a : Address) (b : UInt8) :
    (m.set a b).bytes.size = m.bytes.size := by
  unfold set
  split <;> simp

@[simp] theorem size_store (m : Memory) (a : Address) (bs : List UInt8) :
    (m.store a bs).bytes.size = m.bytes.size := by
  induction bs generalizing m a with
  | nil => rfl
  | cons b bs ih => simp [store, ih]

@[simp] theorem length_load (m : Memory) (a : Address) (n : Nat) :
    (m.load a n).length = n := by
  simp [load]

/-- A write inside the memory is seen at its address and nowhere else. -/
theorem get_set (m : Memory) (a a' : Address) (b : UInt8) :
    (m.set a b).get a' = if a' = a ∧ (m.index? a).isSome then b else m.get a' := by
  cases a with
  | absolute x => simp [set, index?]
  | inMemory i =>
    cases a' with
    | absolute x => simp [get]
    | inMemory j =>
      by_cases hij : j = i
      · subst hij
        by_cases hj : j.toNat < m.bytes.size <;>
          simp [set, get, index?, hj, Array.getD_eq_getD_getElem?]
      · have : i.toNat ≠ j.toNat := fun e => hij (UInt64.toNat_inj.1 e.symm)
        simp [set, get, index?, hij, Array.getD_eq_getD_getElem?,
          Array.getElem?_setIfInBounds_ne this]

end Memory

end SpanChain
