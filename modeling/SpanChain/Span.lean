/-
**Spans.**

A span is a base address and a length in bytes.  It describes a stretch of memory and owns
nothing: cutting it or entering it at an offset only makes another description.

Main definitions:

* `SpanChain.Span`, `SpanChain.Span.empty`;
* `SpanChain.Span.finish` — the address behind the last byte;
* `SpanChain.Span.dropFirst`, `SpanChain.Span.takeFirst` — the two halves of a cut;
* `SpanChain.Span.meets` — the second span starts where the first one ends;
* `SpanChain.Span.addresses` — the addresses of the bytes described.

Main results:

* `SpanChain.Span.addresses_dropFirst`, `SpanChain.Span.addresses_takeFirst` — the halves of a
  cut describe the halves of the addresses.
-/

import SpanChain.Address
import SpanChain.Size

set_option relaxedAutoImplicit false
set_option autoImplicit false

namespace SpanChain

/-- A stretch of memory: `len` bytes from `base` on. -/
structure Span where
  /-- The address of the first byte. -/
  base : Address
  len : Nat
  /-- The number of bytes is a size. -/
  len_lt : len < sizeLimit
  deriving DecidableEq, Repr

namespace Span

/-- The empty span at the null address. -/
def empty : Span := ⟨.null, 0, by decide⟩

instance : Inhabited Span := ⟨empty⟩

/-- Whether a span has no bytes. -/
def isEmpty (s : Span) : Bool := s.len == 0

/-- The address behind the last byte. -/
def finish (s : Span) : Address := s.base + s.len

/-- What is left of a span behind its first `offset` bytes. -/
def dropFirst (s : Span) (offset : Nat) : Except Fault Span :=
  if offset ≤ s.len then
    .ok ⟨s.base + offset, s.len - offset, Nat.lt_of_le_of_lt (Nat.sub_le ..) s.len_lt⟩
  else
    .error (.offsetPastEnd offset s.len)

/-- The first `newLen` bytes of a span. -/
def takeFirst (s : Span) (newLen : Nat) : Except Fault Span :=
  if h : newLen ≤ s.len then
    .ok ⟨s.base, newLen, Nat.lt_of_le_of_lt h s.len_lt⟩
  else
    .error (.growSpan s.len newLen)

/-- A cut of a span. -/
inductive Cut where
  /-- Keeps what is behind the first bytes. -/
  | dropFirst (offset : Nat)
  /-- Keeps the first bytes. -/
  | takeFirst (newLen : Nat)
  deriving DecidableEq, Repr

/-- What is left of a span after a cut. -/
def cut (s : Span) : Cut → Except Fault Span
  | .dropFirst offset => s.dropFirst offset
  | .takeFirst newLen => s.takeFirst newLen

/-- What is left of a span after several cuts. -/
def cutAll (s : Span) (cuts : List Cut) : Except Fault Span := cuts.foldlM cut s

/-- Whether `t` starts exactly where `s` ends.  Only addresses count, and a span at the null
address meets nothing. -/
def meets (s t : Span) : Bool := !s.base.isNull && s.finish == t.base

/-- The addresses of the bytes that a span describes, in order. -/
def addresses (s : Span) : List Address := (List.range s.len).map (s.base + ·)

/-! ### Sizes and addresses of the halves -/

@[simp] theorem len_empty : empty.len = 0 := rfl

@[simp] theorem addresses_empty : empty.addresses = [] := rfl

@[simp] theorem length_addresses (s : Span) : s.addresses.length = s.len := by
  simp [addresses]

theorem isEmpty_iff (s : Span) : s.isEmpty = true ↔ s.len = 0 := by simp [isEmpty]

/-- A span that was cut to a length has the same base, and was not shorter. -/
theorem of_takeFirst {s t : Span} {k : Nat} (h : s.takeFirst k = .ok t) :
    k ≤ s.len ∧ t.base = s.base ∧ t.len = k := by
  rw [takeFirst] at h
  split at h
  · next hle =>
      obtain rfl := Except.ok.inj h
      exact ⟨hle, rfl, rfl⟩
  · contradiction

/-- A span that was entered at an offset starts and is shorter by so much. -/
theorem of_dropFirst {s t : Span} {k : Nat} (h : s.dropFirst k = .ok t) :
    t.base = s.base + k ∧ t.len = s.len - k := by
  rw [dropFirst] at h
  split at h
  · obtain rfl := Except.ok.inj h
    exact ⟨rfl, rfl⟩
  · contradiction

/-- Entering a span at an offset within it drops so many addresses. -/
theorem addresses_dropFirst {s t : Span} {k : Nat} (h : s.dropFirst k = .ok t) :
    t.addresses = s.addresses.drop k := by
  obtain ⟨hbase, hlen⟩ := of_dropFirst h
  apply List.ext_getElem
  · simp [hlen]
  · intro i _ _
    simp [addresses, hbase, Address.add_add]

/-- Cutting a span to a length within it keeps so many addresses. -/
theorem addresses_takeFirst {s t : Span} {k : Nat} (h : s.takeFirst k = .ok t) :
    t.addresses = s.addresses.take k := by
  obtain ⟨hle, hbase, hlen⟩ := of_takeFirst h
  apply List.ext_getElem
  · simp [hlen, hle]
  · intro i _ _
    simp [addresses, hbase]

theorem takeFirst_eq_error_iff {s : Span} {k : Nat} {f : Fault} :
    s.takeFirst k = .error f ↔ s.len < k ∧ f = .growSpan s.len k := by
  unfold takeFirst
  split <;> simp [eq_comm] <;> omega

end Span

end SpanChain
