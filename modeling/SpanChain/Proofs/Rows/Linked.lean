/-
**Stretches of linked nodes.**

A stretch is a row of nodes between two positions of a list.  It is linked if any two neighbours,
the positions at its ends included, name each other: what comes behind the left one is the right
one, and what comes in front of the right one is the left one.  Since the gap of a list is a
position like every other, a whole list is the stretch from its gap to its gap, and the operations
on lists never treat the first or the last node apart.

Main definitions:

* `SpanChain.Walk.ofRow` — the walk over a row of nodes;
* `SpanChain.Pool.Linked` — a stretch is linked.

Main results:

* `SpanChain.Pool.linked_append`, `SpanChain.Pool.linked_append_cons` — a linked stretch is linked
  on both sides of every cut and of every node;
* `SpanChain.Pool.Linked.congr` — a stretch stays linked if nothing is written to its positions;
* `SpanChain.Pool.Linked.moveEnd`, `SpanChain.Pool.Linked.moveStart` — a stretch is tied to another
  position at one of its ends;
* `SpanChain.Pool.Linked.walk_take` — a walk over a linked list gives its nodes in order.
-/

import Mathlib.Data.Fintype.Card
import SpanChain.Pool.Edit

set_option relaxedAutoImplicit false
set_option autoImplicit false

namespace SpanChain

variable {α : Type} {n m : Nat}

namespace Walk

/-- The walk over a row from both ends. -/
def ofRow (s : List (Fin n)) : Walk n := ⟨s.head?, s.getLast?⟩

@[simp] theorem ofRow_nil : ofRow ([] : List (Fin n)) = closed := rfl

end Walk

namespace Pool

variable {p q : Pool α n m} {l k : Fin m} {a b a' b' : Option (Fin n)} {s u v : List (Fin n)}
  {x : Fin n}

/-- Neighbours name each other all along the row `s`, which stands between the positions `a` and
`b` of the list `l`. -/
def Linked (p : Pool α n m) (l : Fin m) :
    Option (Fin n) → List (Fin n) → Option (Fin n) → Prop
  | a, [], b => p.after l a = b ∧ p.before l b = a
  | a, x :: s, b => (p.after l a = some x ∧ p.prev x = a) ∧ p.Linked l (some x) s b

theorem linked_nil : p.Linked l a [] b ↔ p.after l a = b ∧ p.before l b = a := Iff.rfl

theorem linked_cons : p.Linked l a (x :: s) b ↔
    (p.after l a = some x ∧ p.prev x = a) ∧ p.Linked l (some x) s b := Iff.rfl

instance decidableLinked (p : Pool α n m) (l : Fin m) :
    (a : Option (Fin n)) → (s : List (Fin n)) → (b : Option (Fin n)) → Decidable (p.Linked l a s b)
  | a, [], b => inferInstanceAs (Decidable (p.after l a = b ∧ p.before l b = a))
  | a, x :: s, b =>
    have := decidableLinked p l (some x) s b
    inferInstanceAs (Decidable ((p.after l a = some x ∧ p.prev x = a) ∧ p.Linked l (some x) s b))

/-! ### The ends of a stretch -/

/-- The position at the left end and the one behind it name each other. -/
theorem Linked.left (h : p.Linked l a s b) : p.Linked l a [] (s.head?.or b) := by
  cases s with
  | nil => exact h
  | cons x s => exact h.1

/-- The position at the right end and the one in front of it name each other. -/
theorem Linked.right (h : p.Linked l a s b) : p.Linked l (s.getLast?.or a) [] b := by
  induction s generalizing a with
  | nil => exact h
  | cons x s ih => simpa [List.getLast?_cons] using ih h.2

theorem Linked.first_eq (h : p.Linked l none s none) : p.first l = s.head? := by
  simpa using h.left.1

theorem Linked.last_eq (h : p.Linked l none s none) : p.last l = s.getLast? := by
  simpa using h.right.2

/-! ### Cutting a stretch -/

/-- A stretch is linked if it is so on both sides of a cut, the neighbour across the cut
included. -/
theorem linked_append : p.Linked l a (u ++ v) b ↔
    p.Linked l a u (v.head?.or b) ∧ p.Linked l (u.getLast?.or a) v b := by
  induction u generalizing a with
  | nil => exact ⟨fun h => ⟨h.left, h⟩, fun h => h.2⟩
  | cons x u ih => simp [linked_cons, ih, List.getLast?_cons, and_assoc]

/-- A stretch is linked if it is so on both sides of one of its nodes. -/
theorem linked_append_cons : p.Linked l a (u ++ x :: v) b ↔
    p.Linked l a u (some x) ∧ p.Linked l (some x) v b := by
  rw [linked_append]
  constructor
  · rintro ⟨hu, hv⟩
    exact ⟨by simpa using hu, hv.2⟩
  · rintro ⟨hu, hv⟩
    exact ⟨by simpa using hu, by simpa [linked_nil] using hu.right, hv⟩

/-! ### Writes around a stretch -/

/-- A stretch stays linked, possibly as a part of another list, if its inner nodes keep their links
and its ends keep what they see of it. -/
theorem Linked.congr (h : p.Linked l a s b) (ha : q.after k a = p.after l a)
    (hb : q.before k b = p.before l b) (hnext : ∀ z ∈ s, q.next z = p.next z)
    (hprev : ∀ z ∈ s, q.prev z = p.prev z) : q.Linked k a s b := by
  induction s generalizing a with
  | nil => exact ⟨ha.trans h.1, hb.trans h.2⟩
  | cons x s ih =>
      refine ⟨⟨ha.trans h.1.1, (hprev x (by simp)).trans h.1.2⟩, ih h.2 ?_ ?_ ?_⟩
      · exact hnext x (by simp)
      · exact fun z hz => hnext z (by simp [hz])
      · exact fun z hz => hprev z (by simp [hz])

/-- A stretch that began at another position is linked from `a'` on, if `a'` and its first node name
each other and all else of it is as before. -/
theorem Linked.moveStart (h : p.Linked l a s b) (hs : s.Nodup)
    (hafter : q.after k a' = s.head?.or b) (hbefore : q.before k (s.head?.or b) = a')
    (hnext : ∀ z ∈ s, q.next z = p.next z)
    (hprev : ∀ z ∈ s, some z ≠ s.head? → q.prev z = p.prev z)
    (hb : s ≠ [] → q.before k b = p.before l b) : q.Linked k a' s b := by
  cases s with
  | nil => exact ⟨hafter, hbefore⟩
  | cons x s =>
      refine ⟨⟨hafter, hbefore⟩, h.2.congr (hnext x (by simp)) (hb (by simp)) ?_ ?_⟩
      · exact fun z hz => hnext z (by simp [hz])
      · intro z hz
        have hzx : z ≠ x := fun e => (List.nodup_cons.1 hs).1 (e ▸ hz)
        exact hprev z (by simp [hz]) (by simpa using hzx)

/-- A stretch that ended at another position is linked up to `b'`, if its last node and `b'` name
each other and all else of it is as before. -/
theorem Linked.moveEnd (h : p.Linked l a s b) (hs : s.Nodup)
    (hafter : q.after k (s.getLast?.or a) = b') (hbefore : q.before k b' = s.getLast?.or a)
    (hnext : ∀ z ∈ s, some z ≠ s.getLast? → q.next z = p.next z)
    (hprev : ∀ z ∈ s, q.prev z = p.prev z)
    (ha : s ≠ [] → q.after k a = p.after l a) : q.Linked k a s b' := by
  -- the last node of the row is the last one of what follows its head, unless the head is alone
  induction s generalizing a with
  | nil => exact ⟨hafter, hbefore⟩
  | cons x s ih =>
      obtain ⟨hx, hs⟩ := List.nodup_cons.1 hs
      have hlast : (x :: s).getLast?.or a = s.getLast?.or (some x) := by
        simp [List.getLast?_cons]
      rw [hlast] at hafter hbefore
      refine ⟨⟨(ha (by simp)).trans h.1.1, (hprev x (by simp)).trans h.1.2⟩,
        ih h.2 hs hafter hbefore ?_ ?_ ?_⟩
      · intro z hz hne
        refine hnext z (by simp [hz]) ?_
        rw [List.getLast?_cons]
        cases hs' : s.getLast? with
        | none => simp [List.getLast?_eq_none_iff.1 hs'] at hz
        | some y => simpa [hs'] using hne
      · exact fun z hz => hprev z (by simp [hz])
      · intro hs'
        refine hnext x (by simp) ?_
        rw [List.getLast?_cons]
        cases hy : s.getLast? with
        | none => exact absurd (List.getLast?_eq_none_iff.1 hy) hs'
        | some y =>
            have hys : y ∈ s := List.mem_of_getLast? hy
            intro e
            simp only [Option.getD_some, Option.some.injEq] at e
            exact hx (e ▸ hys)

/-! ### Walking over a linked list -/

theorem Linked.walk_eq (h : p.Linked l none s none) : p.walk l = Walk.ofRow s := by
  rw [walk, h.first_eq, h.last_eq, Walk.ofRow]

/-- One node from the front of a walk over a linked row. -/
theorem Linked.walk_next (h : p.Linked l a (x :: s) b) (hs : (x :: s).Nodup) :
    Walk.next p (Walk.ofRow (x :: s)) = (some x, Walk.ofRow s) := by
  rw [Walk.ofRow, List.head?_cons, Walk.next_some]
  cases s with
  | nil => simp
  | cons y s =>
      -- the walk closes only where the first node is the last one, too
      have hlast : (x :: y :: s).getLast? ≠ some x := by
        rw [List.getLast?_cons_cons]
        exact fun e => (List.nodup_cons.1 hs).1 (List.mem_of_getLast? e)
      have hx : p.next x = some y := by simpa using h.2.left.1
      rw [if_neg hlast, hx, List.getLast?_cons_cons]
      rfl

/-- One node from the back of a walk over a linked row. -/
theorem Linked.walk_nextBack (h : p.Linked l a (s ++ [x]) b) (hs : (s ++ [x]).Nodup) :
    Walk.nextBack p (Walk.ofRow (s ++ [x])) = (some x, Walk.ofRow s) := by
  rw [Walk.ofRow, List.getLast?_concat, Walk.nextBack_some]
  cases s with
  | nil => simp
  | cons y s =>
      have hfirst : (y :: s ++ [x]).head? ≠ some x := by
        rintro ⟨⟩
        exact (List.nodup_cons.1 hs).1 (by simp)
      have hx : p.prev x = (y :: s).getLast? := by
        simpa [List.getLast?_cons] using (linked_append_cons.1 h).1.right.2
      rw [if_neg hfirst, hx]
      rfl

/-- A walk over a linked row gives its nodes in order. -/
theorem Linked.walk_take (h : p.Linked l a s none) (hs : s.Nodup) {j : Nat} (hj : s.length ≤ j) :
    (Walk.ofRow s).take p j = s := by
  -- the walk that is left behind a node is the walk over the row that is left
  induction s generalizing a j with
  | nil => cases j <;> rfl
  | cons x s ih =>
      obtain ⟨j, rfl⟩ : ∃ i, j = i + 1 := ⟨j - 1, by simp at hj; omega⟩
      rw [Walk.take, h.walk_next hs]
      simp only
      rw [ih h.2 (List.nodup_cons.1 hs).2 (by simpa using hj)]

/-- The nodes of a linked list are the row that it was linked from. -/
theorem Linked.members_eq (h : p.Linked l none s none) (hs : s.Nodup) : p.members l = s := by
  rw [members, h.walk_eq]
  -- a walk is cut off behind as many nodes as there are, and no row has more of them
  refine h.walk_take hs ?_
  simpa using hs.length_le_card

end Pool

end SpanChain
