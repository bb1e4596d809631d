/-
**Sizes and checked arithmetic.**

Lengths and offsets are natural numbers below `2 ^ 64`.  A sum that leaves this range is a fault,
never a wrapped number.

Main definitions:

* `SpanChain.sizeLimit` — the first number that is no size;
* `SpanChain.addSize` — the addition of sizes.

Main results:

* `SpanChain.addSize_eq_ok_iff` — exactly when it succeeds;
* `SpanChain.addSize_add` — two sums in a row are one.
-/

import SpanChain.Fault

set_option relaxedAutoImplicit false
set_option autoImplicit false

namespace SpanChain

/-- Sizes are the natural numbers below this one. -/
abbrev sizeLimit : Nat := UInt64.size

/-- The sum of two sizes, a fault where it is no size. -/
def addSize (a b : Nat) : Except Fault Nat :=
  if a + b < sizeLimit then .ok (a + b) else .error .addOverflow

theorem addSize_of_lt {a b : Nat} (h : a + b < sizeLimit) : addSize a b = .ok (a + b) :=
  if_pos h

/-- A sum succeeds exactly when it is a size. -/
theorem addSize_eq_ok_iff {a b c : Nat} :
    addSize a b = .ok c ↔ a + b < sizeLimit ∧ c = a + b := by
  unfold addSize
  split <;> simp [eq_comm] <;> omega

/-- Two sums in a row are one: the second fails at the latest where the total is no size. -/
theorem addSize_add (a b c : Nat) :
    addSize a (b + c) = (do let d ← addSize a b; addSize d c) := by
  by_cases h : a + b < sizeLimit
  · rw [addSize_of_lt h, addSize, ← Nat.add_assoc]
    rfl
  · have hsum : ¬ a + (b + c) < sizeLimit := by omega
    rw [addSize, if_neg hsum, addSize, if_neg h]
    rfl

end SpanChain
