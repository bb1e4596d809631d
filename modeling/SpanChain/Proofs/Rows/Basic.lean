/-
**Rows of nodes.**

What a pool of nodes and lists stands for is a row of nodes for each list.  Rows know nothing of
links; an operation on lists is meant to do to the rows what its counterpart on sequences does.

Main definitions:

* `SpanChain.Row`, `SpanChain.Rows` — the nodes of one list and of all lists;
* `SpanChain.Row.front`, `SpanChain.Row.back` — the two parts of a row in front of a node and from
  it on;
* `SpanChain.Row.insertAfter`, `SpanChain.Row.insertBefore` — a node put beside a position;
* `SpanChain.Rows.Apart` — no node is twice in the rows;
* `SpanChain.Rows.tally` — how often a node is in the rows.

Main results:

* `SpanChain.Row.exists_cut_behind`, `SpanChain.Row.exists_cut_ahead` — a node put beside a position
  comes into a cut;
* `SpanChain.Rows.sum_update` — how a sum over all rows changes with one of them;
* `SpanChain.Rows.apart_iff` — no node is twice in the rows if every tally is at most one.
-/

import Mathlib.Algebra.BigOperators.Fin
import Mathlib.Algebra.Order.BigOperators.Group.Finset
import Mathlib.Tactic.Abel

set_option relaxedAutoImplicit false
set_option autoImplicit false

namespace SpanChain

open scoped BigOperators

variable {n m : Nat}

/-- The nodes of a list, front to back. -/
abbrev Row (n : Nat) := List (Fin n)

/-- The nodes of all lists. -/
abbrev Rows (n m : Nat) := Fin m → Row n

/-- A sum after one of its terms has been replaced. -/
theorem sum_update_add {M : Type} [AddCommMonoid M] (f : Fin m → M) (l : Fin m) (a : M) :
    ∑ k, Function.update f l a k + f l = ∑ k, f k + a := by
  rw [Finset.sum_update_of_mem (Finset.mem_univ l), ← Finset.erase_eq,
    ← Finset.add_sum_erase _ f (Finset.mem_univ l)]
  abel

/-! ### One row -/

namespace Row

variable {x y : Fin n} {s u v : Row n}

/-- The nodes in front of a node. -/
def front (x : Fin n) (s : Row n) : Row n := s.takeWhile (· ≠ x)

/-- A node and all nodes behind it. -/
def back (x : Fin n) (s : Row n) : Row n := s.dropWhile (· ≠ x)

/-- A row with a node put behind a position, where the gap stands in front of all nodes. -/
def insertAfter (s : Row n) : Option (Fin n) → Fin n → Row n
  | none, y => y :: s
  | some x, y => front x s ++ x :: y :: (back x s).tail

/-- A row with a node put in front of a position, where the gap stands behind all nodes. -/
def insertBefore (s : Row n) : Option (Fin n) → Fin n → Row n
  | none, y => s ++ [y]
  | some x, y => front x s ++ y :: back x s

theorem front_append_cons (hx : x ∉ u) : front x (u ++ x :: v) = u := by
  have hu : ∀ z ∈ u, decide (z ≠ x) = true := fun z hz => by
    simpa using fun e : z = x => hx (e ▸ hz)
  rw [front, List.takeWhile_append_of_pos hu]
  simp

theorem back_append_cons (hx : x ∉ u) : back x (u ++ x :: v) = x :: v := by
  have hu : ∀ z ∈ u, decide (z ≠ x) = true := fun z hz => by
    simpa using fun e : z = x => hx (e ▸ hz)
  rw [back, List.dropWhile_append_of_pos hu]
  simp

/-- A row is cut at each of its nodes, which is in front of the cut only once. -/
theorem exists_eq_append_cons (hx : x ∈ s) : ∃ u v, s = u ++ x :: v ∧ x ∉ u := by
  obtain ⟨u, v, rfl, hu⟩ := List.eq_append_cons_of_mem hx
  exact ⟨u, v, rfl, hu⟩

/-- What is put behind a position comes into the cut there. -/
theorem exists_cut_behind {a : Option (Fin n)} (ha : ∀ z ∈ a, z ∈ s) :
    ∃ u v, s = u ++ v ∧ u.getLast? = a ∧ ∀ y, insertAfter s a y = u ++ y :: v := by
  cases a with
  | none => exact ⟨[], s, rfl, rfl, fun y => rfl⟩
  | some x =>
      obtain ⟨u, v, rfl, hu⟩ := exists_eq_append_cons (ha x rfl)
      refine ⟨u ++ [x], v, List.append_cons .., List.getLast?_concat .., fun y => ?_⟩
      rw [insertAfter, front_append_cons hu, back_append_cons hu, List.tail_cons, List.append_cons]

/-- What is put in front of a position comes into the cut there. -/
theorem exists_cut_ahead {a : Option (Fin n)} (ha : ∀ z ∈ a, z ∈ s) :
    ∃ u v, s = u ++ v ∧ v.head? = a ∧ ∀ y, insertBefore s a y = u ++ y :: v := by
  cases a with
  | none => exact ⟨s, [], (List.append_nil _).symm, rfl, fun y => rfl⟩
  | some x =>
      obtain ⟨u, v, rfl, hu⟩ := exists_eq_append_cons (ha x rfl)
      refine ⟨u, x :: v, rfl, rfl, fun y => ?_⟩
      rw [insertBefore, front_append_cons hu, back_append_cons hu]

end Row

/-! ### All rows -/

namespace Rows

variable {s t : Rows n m} {l k : Fin m} {x : Fin n} {u v w : Row n}

/-- The rows with one of them replaced. -/
def set (s : Rows n m) (l : Fin m) (u : Row n) : Rows n m := Function.update s l u

@[simp] theorem set_self (s : Rows n m) (l : Fin m) (u : Row n) : s.set l u l = u :=
  Function.update_self ..

@[simp] theorem set_of_ne (h : k ≠ l) : s.set l u k = s k := Function.update_of_ne h ..

@[simp] theorem set_eq_self (s : Rows n m) (l : Fin m) : s.set l (s l) = s :=
  Function.update_eq_self ..

@[simp] theorem set_set (s : Rows n m) (l : Fin m) (u v : Row n) :
    (s.set l u).set l v = s.set l v :=
  Function.update_idem ..

theorem set_comm (h : l ≠ k) (s : Rows n m) (u v : Row n) :
    (s.set l u).set k v = (s.set k v).set l u :=
  Function.update_comm h ..

/-- No node is twice in the rows. -/
structure Apart (s : Rows n m) : Prop where
  /-- No row has a node twice. -/
  nodup : ∀ l, (s l).Nodup
  /-- No node is in two rows. -/
  same_row : ∀ {l k : Fin m} {x : Fin n}, x ∈ s l → x ∈ s k → l = k

instance (s : Rows n m) : Decidable s.Apart :=
  decidable_of_iff ((∀ l, (s l).Nodup) ∧ ∀ l k x, x ∈ s l → x ∈ s k → l = k)
    ⟨fun h => ⟨h.1, fun {l k x} => h.2 l k x⟩, fun h => ⟨h.nodup, fun _ _ _ => h.same_row⟩⟩

theorem Apart.notMem_front (h : s.Apart) (hs : s l = u ++ x :: v) : x ∉ u := by
  intro hx
  have hl := h.nodup l
  rw [hs, List.nodup_append'] at hl
  exact hl.2.2 hx (by simp)

theorem Apart.notMem_back (h : s.Apart) (hs : s l = u ++ x :: v) : x ∉ v := by
  have hl := h.nodup l
  rw [hs, List.nodup_append'] at hl
  exact (List.nodup_cons.1 hl.2.1).1

/-- A node is in none of the rows. -/
def Unlisted (s : Rows n m) (x : Fin n) : Prop := ∀ l, x ∉ s l

instance (s : Rows n m) (x : Fin n) : Decidable (s.Unlisted x) :=
  inferInstanceAs (Decidable (∀ l, x ∉ s l))

/-- A node stays out of the rows when one of them is replaced by a row without it. -/
theorem Unlisted.set (h : s.Unlisted x) (l : Fin m) (hu : x ∉ u) :
    (s.set l u).Unlisted x := by
  intro k
  by_cases hk : k = l
  · rwa [hk, set_self]
  · rw [set_of_ne hk]
    exact h k

/-- How often a node is in the rows. -/
def tally (s : Rows n m) (x : Fin n) : Nat := ∑ l, (s l).count x

/-- A sum over all rows after one of them has been replaced. -/
theorem sum_update {M : Type} [AddCommMonoid M] (g : Row n → M) (s : Rows n m) (l : Fin m)
    (u : Row n) :
    ∑ k, g (s.set l u k) + g (s l) = ∑ k, g (s k) + g u := by
  have h := sum_update_add (fun k => g (s k)) l (g u)
  have hset : (fun k => g (s.set l u k)) = Function.update (fun k => g (s k)) l (g u) :=
    Function.comp_update g s l u
  rw [hset]
  exact h

theorem tally_update (s : Rows n m) (l : Fin m) (u : Row n) (x : Fin n) :
    (s.set l u).tally x + (s l).count x = s.tally x + u.count x :=
  sum_update (fun w => w.count x) s l u

theorem count_le_tally (s : Rows n m) (l : Fin m) (x : Fin n) : (s l).count x ≤ s.tally x :=
  Finset.single_le_sum (f := fun k => (s k).count x) (fun _ _ => Nat.zero_le _)
    (Finset.mem_univ l)

theorem tally_eq_zero_iff : s.tally x = 0 ↔ s.Unlisted x := by
  simp [tally, Unlisted, Finset.sum_eq_zero_iff, List.count_eq_zero]

/-- **No node is twice in the rows** if and only if every tally is at most one. -/
theorem apart_iff : s.Apart ↔ ∀ x, s.tally x ≤ 1 := by
  constructor
  · intro h x
    by_cases hx : s.Unlisted x
    · simp [tally_eq_zero_iff.2 hx]
    · simp only [Unlisted, not_forall, not_not] at hx
      obtain ⟨l, hl⟩ := hx
      -- a listed node counts in its own row alone
      have hrest : ∀ k ∈ Finset.univ, k ≠ l → (s k).count x = 0 := fun k _ hk =>
        List.count_eq_zero.2 fun hxk => hk (h.same_row hxk hl)
      rw [tally, Finset.sum_eq_single l hrest (by simp)]
      exact List.nodup_iff_count_le_one.1 (h.nodup l) x
  · intro h
    refine ⟨fun l => List.nodup_iff_count_le_one.2 fun x => ?_, fun {l k x} hl hk => ?_⟩
    · exact (count_le_tally s l x).trans (h x)
    · by_contra hlk
      -- two rows with the node would already make a tally of two
      have hpair : (s l).count x + (s k).count x ≤ s.tally x := by
        rw [← Finset.sum_pair (f := fun j => (s j).count x) hlk]
        exact Finset.sum_le_sum_of_subset (Finset.subset_univ _)
      have := List.count_pos_iff.2 hl
      have := List.count_pos_iff.2 hk
      have := h x
      omega

/-- Rows in which no node has become more frequent. -/
theorem Apart.of_tally_le (h : s.Apart) (ht : ∀ x, t.tally x ≤ s.tally x) : t.Apart :=
  apart_iff.2 fun x => (ht x).trans (apart_iff.1 h x)

/-! ### What changes of rows do to sums -/

/-- A measure of rows that adds up along them. -/
structure Additive {M : Type} [AddCommMonoid M] (g : Row n → M) : Prop where
  nil : g [] = 0
  append : ∀ u v, g (u ++ v) = g u + g v

namespace Additive

variable {M : Type} [AddCancelCommMonoid M] {g : Row n → M}

theorem middle (hg : Additive g) (u v : Row n) (x : Fin n) :
    g (u ++ x :: v) = g (u ++ v) + g [x] := by
  rw [← List.singleton_append, hg.append, hg.append, hg.append]
  abel

/-- A node is added to a row. -/
theorem sum_insert (hg : Additive g) (hs : s l = u ++ v) (x : Fin n) :
    ∑ k, g (s.set l (u ++ x :: v) k) = ∑ k, g (s k) + g [x] := by
  have h := sum_update g s l (u ++ x :: v)
  rw [hg.middle, hs] at h
  refine add_right_cancel (b := g (u ++ v)) ?_
  rw [h]
  abel

/-- A node is taken off its row. -/
theorem sum_remove (hg : Additive g) (hs : s l = u ++ x :: v) :
    ∑ k, g (s.set l (u ++ v) k) + g [x] = ∑ k, g (s k) := by
  have h := sum_update g s l (u ++ v)
  rw [hs, hg.middle, ← add_assoc, add_right_comm] at h
  exact add_right_cancel h

/-- A row is moved to the back of another. -/
theorem sum_append (hg : Additive g) (hlk : l ≠ k) :
    ∑ j, g ((s.set l (s l ++ s k)).set k [] j) = ∑ j, g (s j) := by
  have h₁ := sum_update g s l (s l ++ s k)
  have h₂ := sum_update g (s.set l (s l ++ s k)) k []
  rw [set_of_ne hlk.symm, hg.nil, add_zero] at h₂
  rw [hg.append, ← h₂] at h₁
  refine add_right_cancel (b := g (s l) + g (s k)) ?_
  rw [← h₁]
  abel

/-- The nodes of a row are shared between it and another, whose own nodes are dropped. -/
theorem sum_cut (hg : Additive g) (hlk : l ≠ k) (hs : g (u ++ v) = g (s l)) :
    ∑ j, g ((s.set l u).set k v j) + g (s k) = ∑ j, g (s j) := by
  have h₁ := sum_update g s l u
  have h₂ := sum_update g (s.set l u) k v
  rw [set_of_ne hlk.symm] at h₂
  rw [← hs, hg.append] at h₁
  refine add_right_cancel (b := g u) ?_
  rw [h₂, ← h₁]
  abel

end Additive

theorem additive_count (x : Fin n) : Additive fun u : Row n => u.count x :=
  ⟨List.count_nil, fun _ _ => List.count_append⟩

/-! ### What changes of rows do to tallies -/

theorem tally_insert (hs : s l = u ++ v) (x y : Fin n) :
    (s.set l (u ++ x :: v)).tally y = s.tally y + if x = y then 1 else 0 := by
  rw [tally, (additive_count y).sum_insert hs, tally, List.count_singleton]
  simp only [beq_iff_eq]

theorem tally_update_le (hw : w.Sublist (s l)) (y : Fin n) :
    (s.set l w).tally y ≤ s.tally y := by
  have h := tally_update s l w y
  have := hw.count_le y
  omega

theorem tally_append (hlk : l ≠ k) (y : Fin n) :
    ((s.set l (s l ++ s k)).set k []).tally y = s.tally y :=
  (additive_count y).sum_append hlk

theorem tally_cut_le (hlk : l ≠ k) (hs : (u ++ v).Perm (s l)) (y : Fin n) :
    ((s.set l u).set k v).tally y ≤ s.tally y := by
  have h := (additive_count y).sum_cut hlk (hs.count_eq y)
  rw [tally, tally]
  omega

theorem tally_swap (s : Rows n m) (l k : Fin m) (y : Fin n) :
    ((s.set l (s k)).set k (s l)).tally y = s.tally y := by
  have h₁ := tally_update s l (s k) y
  have h₂ := tally_update (s.set l (s k)) k (s l) y
  -- a list that is exchanged with itself is written to twice
  by_cases hlk : k = l
  · subst hlk
    rw [set_self] at h₂
    omega
  · rw [set_of_ne hlk] at h₂
    omega

end Rows

end SpanChain
