/-
**Pools that stand for rows.**

A pool stands for rows of nodes if every list is linked from its gap to its gap along its row, and
no node is twice in the rows.  Nothing is asked of the nodes in none of the rows: they may carry any
links, into the lists or into each other.

Main definitions:

* `SpanChain.Pool.Represents` — a pool stands for rows;
* `SpanChain.Pool.WellFormed` — a pool stands for some rows;
* `SpanChain.Pool.Becomes` — a pool has become another by a change of its rows alone.

Main results:

* `SpanChain.Pool.Represents.members_eq` — the rows are what walks over the lists give, so they are
  determined by the pool;
* `SpanChain.Pool.Represents.contains_iff` — the walk that looks for a node finds exactly the members
  of the list;
* `SpanChain.Pool.Represents.next_eq`, `SpanChain.Pool.Represents.prev_eq` — the links of a member
  are its neighbours.
-/

import SpanChain.Proofs.Rows.Basic
import SpanChain.Proofs.Rows.Linked

set_option relaxedAutoImplicit false
set_option autoImplicit false

namespace SpanChain

variable {α : Type} {n m : Nat}

namespace Pool

/-- The pool stands for the rows. -/
structure Represents (p : Pool α n m) (s : Rows n m) : Prop where
  /-- Each list is linked along its row. -/
  linked : ∀ l, p.Linked l none (s l) none
  /-- No node is twice in the rows. -/
  apart : s.Apart

instance (p : Pool α n m) (s : Rows n m) : Decidable (p.Represents s) :=
  decidable_of_iff ((∀ l, p.Linked l none (s l) none) ∧ s.Apart)
    ⟨fun h => ⟨h.1, h.2⟩, fun h => ⟨h.linked, h.apart⟩⟩

/-- The pool stands for some rows.  These can only be the nodes of its lists. -/
def WellFormed (p : Pool α n m) : Prop := p.Represents p.members

instance (p : Pool α n m) : Decidable p.WellFormed :=
  inferInstanceAs (Decidable (p.Represents p.members))

/-- The pool `p`, which stands for the rows `s`, has become the pool `q`, which stands for the rows
`t`.  What nodes carry has not changed, nor have the links of nodes that are in neither. -/
structure Becomes (p : Pool α n m) (s : Rows n m) (q : Pool α n m) (t : Rows n m) : Prop where
  /-- The new pool stands for the new rows. -/
  represents : q.Represents t
  /-- The nodes carry what they carried. -/
  data : ∀ y, q.data y = p.data y
  /-- A node that was on no list and is on none has the links that it had. -/
  links : ∀ y, s.Unlisted y → t.Unlisted y → q.next y = p.next y ∧ q.prev y = p.prev y

variable {p q : Pool α n m} {s t : Rows n m} {l k : Fin m} {x : Fin n} {u v : Row n}

/-! ### Observations of represented rows -/

namespace Represents

theorem first_eq (h : p.Represents s) (l : Fin m) : p.first l = (s l).head? :=
  (h.linked l).first_eq

theorem last_eq (h : p.Represents s) (l : Fin m) : p.last l = (s l).getLast? :=
  (h.linked l).last_eq

/-- A member is followed by its right neighbour, the last one by none. -/
theorem next_eq (h : p.Represents s) (hs : s l = u ++ x :: v) : p.next x = v.head? := by
  have hl := h.linked l
  rw [hs, linked_append_cons] at hl
  simpa using hl.2.left.1

/-- A member is preceded by its left neighbour, the first one by none. -/
theorem prev_eq (h : p.Represents s) (hs : s l = u ++ x :: v) : p.prev x = u.getLast? := by
  have hl := h.linked l
  rw [hs, linked_append_cons] at hl
  simpa using hl.1.right.2

/-- What comes behind the left side of a cut is the right side. -/
theorem after_eq (h : p.Represents s) (hs : s l = u ++ v) : p.after l u.getLast? = v.head? := by
  have hl := h.linked l
  rw [hs, linked_append] at hl
  simpa using hl.2.left.1

theorem before_eq (h : p.Represents s) (hs : s l = u ++ v) :
    p.before l v.head? = u.getLast? := by
  have hl := h.linked l
  rw [hs, linked_append] at hl
  simpa using hl.1.right.2

/-- **The rows are the nodes of the lists**, so a pool stands for no other rows. -/
theorem members_eq (h : p.Represents s) : p.members = s :=
  funext fun l => (h.linked l).members_eq (h.apart.nodup l)

theorem wellFormed (h : p.Represents s) : p.WellFormed := by
  rw [WellFormed, h.members_eq]
  exact h

/-- A node is found on a list if and only if it is in its row. -/
theorem contains_iff (h : p.Represents s) : p.contains l x = true ↔ x ∈ s l := by
  rw [contains, h.members_eq, List.contains_iff_mem]

theorem checkMember_of_mem (h : p.Represents s) (hx : x ∈ s l) :
    p.checkMember l x = .ok () := by
  rw [checkMember, if_pos (h.contains_iff.2 hx)]

theorem checkMember_of_notMem (h : p.Represents s) (hx : x ∉ s l) :
    p.checkMember l x = .error .notMember := by
  rw [checkMember, if_neg fun hc => hx (h.contains_iff.1 hc)]

/-- A position of a list passes the check of anchors. -/
theorem checkAnchor_eq (h : p.Represents s) {a : Option (Fin n)} (ha : ∀ x ∈ a, x ∈ s l) :
    p.checkAnchor l a = .ok () := by
  cases a with
  | none => rfl
  | some x => exact h.checkMember_of_mem (ha x rfl)

/-- A list whose ends and nodes were not written to is linked along the same row. -/
theorem linked_of_eq (h : p.Represents s) (hfirst : q.first k = p.first k)
    (hlast : q.last k = p.last k) (hnext : ∀ z ∈ s k, q.next z = p.next z)
    (hprev : ∀ z ∈ s k, q.prev z = p.prev z) : q.Linked k none (s k) none :=
  (h.linked k).congr hfirst hlast hnext hprev

/-- Pools with the same ends and links stand for the same rows. -/
theorem congr (h : p.Represents s) (hfirst : ∀ k, q.first k = p.first k)
    (hlast : ∀ k, q.last k = p.last k) (hnext : ∀ k, ∀ z ∈ s k, q.next z = p.next z)
    (hprev : ∀ k, ∀ z ∈ s k, q.prev z = p.prev z) : q.Represents s :=
  ⟨fun k => h.linked_of_eq (hfirst k) (hlast k) (hnext k) (hprev k), h.apart⟩

/-- What nodes carry does not matter. -/
theorem setData (h : p.Represents s) (x : Fin n) (d : α) : (p.setData x d).Represents s :=
  h.congr (by simp) (by simp) (by simp) (by simp)

/-- The links of a node that is on no list do not matter. -/
theorem unlink (h : p.Represents s) (hx : s.Unlisted x) : (p.unlink x).Represents s := by
  -- no link of a listed node is written to
  have hne : ∀ k, ∀ z ∈ s k, z ≠ x := fun k z hz e => hx k (e ▸ hz)
  refine h.congr (by simp) (by simp) (fun k z hz => ?_) (fun k z hz => ?_)
  · simp [hne k z hz]
  · simp [hne k z hz]

end Represents

theorem Represents.becomes_refl (h : p.Represents s) : p.Becomes s p s :=
  ⟨h, fun _ => rfl, fun _ _ _ => ⟨rfl, rfl⟩⟩

/-- Empty lists stand for empty rows, whatever links the nodes have. -/
theorem represents_of_empty (h : ∀ l, p.first l = none ∧ p.last l = none) :
    p.Represents fun _ => [] :=
  ⟨h, fun _ => List.nodup_nil, fun hx => absurd hx List.not_mem_nil⟩

end Pool

end SpanChain
