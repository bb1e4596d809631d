/-
**Addresses.**

An address is either an absolute number or an offset into the memory at hand.  The two kinds are
never equal, whatever their numbers, and adding to an address stays within its kind and wraps
around at `2 ^ 64`.  The null address is the absolute number zero.

Main definitions:

* `SpanChain.Address`, `SpanChain.Address.null`, `SpanChain.Address.isNull`;
* `SpanChain.Address.add`, written `a + k`;
* `SpanChain.Address.toInt` — the number of an address, read as a signed one.

Main results:

* `SpanChain.Address.add_add` — two steps are one step by their sum.
-/

set_option relaxedAutoImplicit false
set_option autoImplicit false

namespace SpanChain

/-- A place in one of two address ranges. -/
inductive Address where
  /-- The number itself. -/
  | absolute (number : UInt64)
  /-- So many bytes from the start of the memory, which may also lie outside of it. -/
  | inMemory (offset : UInt64)
  deriving DecidableEq, Repr

namespace Address

/-- The null address. -/
def null : Address := .absolute 0

/-- Whether an address is the null address. -/
def isNull (a : Address) : Bool := a == null

/-- The address `k` bytes further on. -/
def add : Address → Nat → Address
  | .absolute x, k => .absolute (x + UInt64.ofNat k)
  | .inMemory x, k => .inMemory (x + UInt64.ofNat k)

instance : HAdd Address Nat Address := ⟨add⟩

/-- The number of an address as a signed one, so that places before the start are negative. -/
def toInt : Address → Int
  | .absolute x => x.toInt64.toInt
  | .inMemory x => x.toInt64.toInt

/-! ### Steps -/

theorem absolute_add (x : UInt64) (k : Nat) :
    Address.absolute x + k = Address.absolute (x + UInt64.ofNat k) := rfl

theorem inMemory_add (x : UInt64) (k : Nat) :
    Address.inMemory x + k = Address.inMemory (x + UInt64.ofNat k) := rfl

@[simp] theorem add_zero (a : Address) : a + 0 = a := by
  cases a <;> simp [absolute_add, inMemory_add]

/-- Two steps are one step by their sum. -/
theorem add_add (a : Address) (j k : Nat) : a + j + k = a + (j + k) := by
  cases a <;> simp [absolute_add, inMemory_add, UInt64.ofNat_add, UInt64.add_assoc]

end Address

end SpanChain
