/-
**Ways along links.**

A way follows the links from one node to the next, in one of the two directions, without asking
whether the nodes are on a list.  On a list it ends where the list does.

Main definitions:

* `SpanChain.Pool.Way` — the nodes of a way that ends.

Main results:

* `SpanChain.Pool.Way.unique`, `SpanChain.Pool.Way.nodup`, `SpanChain.Pool.Way.length_le` — a way
  that ends comes to no node twice, so it is no longer than the pool has nodes;
* `SpanChain.Pool.Represents.way_forward`, `SpanChain.Pool.Represents.way_backward` — the ways on
  both sides of a cut.
-/

import SpanChain.Cursor
import SpanChain.Proofs.Rows.Represents

set_option relaxedAutoImplicit false
set_option autoImplicit false

namespace SpanChain

variable {α : Type} {n m : Nat}

namespace Pool

variable {p : Pool α n m} {d : Direction} {a : Option (Fin n)} {s : Rows n m} {l : Fin m}
  {x : Fin n} {u v w w' : Row n}

/-! ### Ways that end -/

/-- The row is the way along the links from `a` on: each of its nodes is followed by the next one,
and the last one by none. -/
def Way (p : Pool α n m) (d : Direction) : Option (Fin n) → Row n → Prop
  | a, [] => a = none
  | a, x :: w => a = some x ∧ p.Way d (p.follow d x) w

instance decidableWay (p : Pool α n m) (d : Direction) :
    (a : Option (Fin n)) → (w : Row n) → Decidable (p.Way d a w)
  | a, [] => inferInstanceAs (Decidable (a = none))
  | a, x :: w =>
    have := decidableWay p d (p.follow d x) w
    inferInstanceAs (Decidable (a = some x ∧ p.Way d (p.follow d x) w))

/-- There is one way from each position. -/
theorem Way.unique (h : p.Way d a w) (h' : p.Way d a w') : w = w' := by
  induction w generalizing a w' with
  | nil =>
      cases w' with
      | nil => rfl
      | cons x w' => exact absurd (h.symm.trans h'.1) (Option.some_ne_none x).symm
  | cons x w ih =>
      cases w' with
      | nil => exact absurd (h.1.symm.trans h') (Option.some_ne_none x)
      | cons y w' =>
          obtain rfl : x = y := Option.some.inj (h.1.symm.trans h'.1)
          rw [ih h.2 h'.2]

/-- From each node of a way the rest of it is a way. -/
theorem Way.of_append_cons (h : p.Way d a (u ++ x :: v)) : p.Way d (some x) (x :: v) := by
  induction u generalizing a with
  | nil => exact ⟨rfl, h.2⟩
  | cons y u ih => exact ih h.2

/-- A way that ends comes to no node twice. -/
theorem Way.nodup (h : p.Way d a w) : w.Nodup := by
  induction w generalizing a with
  | nil => exact List.nodup_nil
  | cons x w ih =>
      refine List.nodup_cons.2 ⟨fun hx => ?_, ih h.2⟩
      -- a second time the way from the node would be shorter, but there is only one
      obtain ⟨u, v, rfl, -⟩ := Row.exists_eq_append_cons hx
      have hagain : x :: v = x :: (u ++ x :: v) := h.2.of_append_cons.unique ⟨rfl, h.2⟩
      have hlen := congrArg List.length hagain
      simp only [List.length_cons, List.length_append] at hlen
      omega

theorem Way.length_le (h : p.Way d a w) : w.length ≤ n := by
  simpa using h.nodup.length_le_card

/-! ### Ways along lists -/

/-- The way from the right side of a cut is this side of it. -/
theorem Represents.way_forward (h : p.Represents s) (hs : s l = u ++ v) :
    p.Way .forward v.head? v := by
  induction v generalizing u with
  | nil => rfl
  | cons x v ih =>
      refine ⟨rfl, ?_⟩
      rw [follow_forward, h.next_eq hs]
      exact ih (hs.trans (List.append_cons u x v))

/-- The way back from the left side of a cut is this side of it. -/
theorem Represents.way_backward (h : p.Represents s) (hs : s l = u ++ v) :
    p.Way .backward u.getLast? u.reverse := by
  induction u using List.reverseRecOn generalizing v with
  | nil => rfl
  | append_singleton u x ih =>
      have hs' : s l = u ++ x :: v := hs.trans (List.append_cons u x v).symm
      rw [List.getLast?_concat, List.reverse_concat]
      refine ⟨rfl, ?_⟩
      rw [follow_backward, h.prev_eq hs']
      exact ih hs'

/-- From a member the way ends where its list does. -/
theorem Represents.exists_way (h : p.Represents s) (hx : x ∈ s l) (d : Direction) :
    ∃ w, p.Way d (some x) w := by
  obtain ⟨u, v, hs, -⟩ := Row.exists_eq_append_cons hx
  cases d with
  | forward => exact ⟨x :: v, h.way_forward hs⟩
  | backward =>
      have hway := h.way_backward (hs.trans (List.append_cons u x v))
      rw [List.getLast?_concat] at hway
      exact ⟨_, hway⟩

end Pool

end SpanChain
