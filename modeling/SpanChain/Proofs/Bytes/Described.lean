/-
**All bytes that are described.**

The addresses that all lists of a pool describe, each as often as it is described, whatever the list
and the place.  Splitting, appending and joining chains move addresses about; only what a tail held
before it was taken over is lost.

Main definitions:

* `SpanChain.Pool.described` — the addresses that the lists describe;
* `SpanChain.Pool.total` — the number of bytes of all lists.

Main results:

* `SpanChain.Pool.total_eq_card`;
* `SpanChain.Pool.Becomes.described_insert`, `SpanChain.Pool.Becomes.described_append`,
  `SpanChain.ByteCursor.Splits.described` — what operations do to them.
-/

import Mathlib.Algebra.Order.BigOperators.Group.Multiset
import SpanChain.Proofs.Bytes.Split

set_option relaxedAutoImplicit false
set_option autoImplicit false

namespace SpanChain

open scoped BigOperators

variable {n m : Nat}

namespace Pool

variable {p q : Pool Span n m} {s t : Rows n m} {l k : Fin m} {u v : Row n} {x : Fin n}

/-- The byte addresses that the lists describe, each as often as they do. -/
def described (p : Pool Span n m) : Multiset Address := ∑ l, (p.addresses l : Multiset Address)

/-- The number of bytes of all lists. -/
def total (p : Pool Span n m) : Nat := ∑ l, ((p.spans l).map Span.len).sum

theorem length_addresses (p : Pool Span n m) (l : Fin m) :
    (p.addresses l).length = ((p.spans l).map Span.len).sum := by
  rw [addresses, List.length_flatMap]
  simp only [Span.length_addresses]

/-- The number of bytes is the number of addresses. -/
theorem total_eq_card (p : Pool Span n m) : p.total = p.described.card := by
  rw [described, Multiset.card_sum, total]
  exact Finset.sum_congr rfl fun l _ => by rw [Multiset.coe_card, length_addresses]

theorem length_addresses_le_total (p : Pool Span n m) (l : Fin m) :
    (p.addresses l).length ≤ p.total := by
  rw [length_addresses]
  exact Finset.single_le_sum (f := fun k => ((p.spans k).map Span.len).sum)
    (fun _ _ => Nat.zero_le _) (Finset.mem_univ l)

theorem mem_described {a : Address} : a ∈ p.described ↔ ∃ l, a ∈ p.addresses l := by
  simp [described, Multiset.mem_sum]

theorem total_le (h : q.described ≤ p.described) : q.total ≤ p.total := by
  rw [total_eq_card, total_eq_card]
  exact Multiset.card_le_card h

/-! ### What changes of rows do -/

theorem additive_rowAddresses (p : Pool Span n m) :
    Rows.Additive fun u => (p.rowAddresses u : Multiset Address) :=
  ⟨rfl, fun u v => by rw [rowAddresses_append, Multiset.coe_add]⟩

/-- What pools describe that stand for rows. -/
theorem Represents.described_eq (h : p.Represents s) :
    p.described = ∑ l, (p.rowAddresses (s l) : Multiset Address) :=
  Finset.sum_congr rfl fun l _ => by rw [h.addresses_eq]

/-- What is described after a change of rows alone. -/
theorem Becomes.described_eq (hb : p.Becomes s q t) :
    q.described = ∑ l, (p.rowAddresses (t l) : Multiset Address) := by
  rw [hb.represents.described_eq]
  exact Finset.sum_congr rfl fun l _ => by rw [rowAddresses_congr fun x _ => hb.data x]

/-- A node that comes to a list adds what it describes. -/
theorem Becomes.described_insert (h : p.Represents s) (hs : s l = u ++ v)
    (hb : p.Becomes s q (s.set l (u ++ x :: v))) :
    q.described = p.described + ((p.data x).addresses : Multiset Address) := by
  rw [hb.described_eq, p.additive_rowAddresses.sum_insert hs, h.described_eq, rowAddresses_cons,
    rowAddresses_nil, List.append_nil]

/-- Appending one list to another changes nothing of it. -/
theorem Becomes.described_append (h : p.Represents s) (hlk : l ≠ k)
    (hb : p.Becomes s q ((s.set l (s l ++ s k)).set k [])) : q.described = p.described := by
  rw [hb.described_eq, p.additive_rowAddresses.sum_append hlk, h.described_eq]

/-- Pools that differ in two lists at most. -/
theorem described_of_eq_off (hlk : l ≠ k)
    (h : ∀ j, j ≠ l → j ≠ k → q.addresses j = p.addresses j) :
    q.described + ((p.addresses l : Multiset Address) + p.addresses k) =
      p.described + ((q.addresses l : Multiset Address) + q.addresses k) := by
  set f : Fin m → Multiset Address := fun j => (p.addresses j : Multiset Address) with hf
  have hq : (fun j => (q.addresses j : Multiset Address)) =
      Function.update (Function.update f l (q.addresses l)) k (q.addresses k) := by
    funext j
    by_cases hjk : j = k
    · subst hjk
      rw [Function.update_self]
    · rw [Function.update_of_ne hjk]
      by_cases hjl : j = l
      · subst hjl
        rw [Function.update_self]
      · rw [Function.update_of_ne hjl, hf, h j hjl hjk]
  -- the two lists are replaced one after the other
  have h₁ := sum_update_add f l (q.addresses l : Multiset Address)
  have h₂ := sum_update_add (Function.update f l (q.addresses l)) k
    (q.addresses k : Multiset Address)
  rw [Function.update_of_ne hlk.symm, ← hq] at h₂
  have hdescribed : q.described = ∑ j, (q.addresses j : Multiset Address) := rfl
  have hdescribed' : p.described = ∑ j, f j := rfl
  rw [hdescribed, hdescribed', add_comm (f l), ← add_assoc, h₂, ← add_assoc, ← h₁]
  abel

end Pool

/-- **A split loses only what the tail described before.** -/
theorem ByteCursor.Splits.described {p q : Pool Span n m} {c c' : ByteCursor n m} {tail : Fin m}
    {extra : Option (Fin n)} {split : Split n} (h : c.Splits p tail extra split q c')
    (htail : tail ≠ c.list) :
    q.described + (p.addresses tail : Multiset Address) = p.described := by
  have hoff := Pool.described_of_eq_off htail.symm fun j hj hjt => (h.others j hj hjt).2
  rw [Multiset.coe_add (q.addresses c.list), h.whole, ← add_assoc, add_right_comm] at hoff
  exact add_right_cancel hoff

end SpanChain
