/-
**What the operations on lists do to rows.**

Every operation writes to a bounded number of links and ends, and the rows change as its counterpart
on sequences says.  All statements are about a cut `u ++ v` of a row or about one of its nodes, so
that the first and the last node, and the only one, are no cases of their own.

Main results:

* `SpanChain.Pool.Represents.insertAfter`, `SpanChain.Pool.Represents.insertBefore` — a node comes
  into the cut;
* `SpanChain.Pool.Represents.remove` — a node leaves its row;
* `SpanChain.Pool.Represents.append` — a row goes to the back of another;
* `SpanChain.Pool.Represents.cutBefore`, `SpanChain.Pool.Represents.cutThrough` — one side of the cut
  goes to another list;
* `SpanChain.Pool.Represents.clear`, `SpanChain.Pool.Represents.swap`.
-/

import SpanChain.Proofs.Rows.Represents

set_option relaxedAutoImplicit false
set_option autoImplicit false

namespace SpanChain

variable {α : Type} {n m : Nat}

/-! ### Positions beside a cut -/

namespace Rows.Apart

variable {s : Rows n m} {l k : Fin m} {x z : Fin n} {u v : Row n}

/-- The node in front of a cut is behind no cut of another list. -/
theorem ne_getLast? (h : s.Apart) (hs : s l = u ++ v) (hk : k ≠ l) (hz : z ∈ s k) :
    some z ≠ u.getLast? := by
  intro e
  have hzl : z ∈ s l := by rw [hs]; exact List.mem_append_left _ (List.mem_of_getLast? e.symm)
  exact hk (h.same_row hz hzl)

theorem ne_head? (h : s.Apart) (hs : s l = u ++ v) (hk : k ≠ l) (hz : z ∈ s k) :
    some z ≠ v.head? := by
  intro e
  have hzl : z ∈ s l := by rw [hs]; exact List.mem_append_right _ (List.mem_of_head? e.symm)
  exact hk (h.same_row hz hzl)

theorem left_ne_head? (h : s.Apart) (hs : s l = u ++ v) (hz : z ∈ u) : some z ≠ v.head? := by
  intro e
  have hl := h.nodup l
  rw [hs, List.nodup_append'] at hl
  exact hl.2.2 hz (List.mem_of_head? e.symm)

theorem right_ne_getLast? (h : s.Apart) (hs : s l = u ++ v) (hz : z ∈ v) :
    some z ≠ u.getLast? := by
  intro e
  have hl := h.nodup l
  rw [hs, List.nodup_append'] at hl
  exact hl.2.2 (List.mem_of_getLast? e.symm) hz

end Rows.Apart

namespace Rows.Unlisted

variable {s : Rows n m} {l : Fin m} {y : Fin n} {u v : Row n}

theorem ne_getLast? (hy : s.Unlisted y) (hs : s l = u ++ v) : some y ≠ u.getLast? := fun e =>
  hy l (by rw [hs]; exact List.mem_append_left _ (List.mem_of_getLast? e.symm))

theorem ne_head? (hy : s.Unlisted y) (hs : s l = u ++ v) : some y ≠ v.head? := fun e =>
  hy l (by rw [hs]; exact List.mem_append_right _ (List.mem_of_head? e.symm))

end Rows.Unlisted

namespace Pool.Represents

variable {p : Pool α n m} {s : Rows n m} {l k : Fin m} {x : Fin n} {u v : Row n}

/-! ### Insertion -/

/-- A node that is on no list comes into a cut. -/
theorem linkBetween (h : p.Represents s) (hs : s l = u ++ v) (hx : s.Unlisted x) :
    ∃ q, p.linkBetween l u.getLast? x v.head? = .ok q ∧
      p.Becomes s q (s.set l (u ++ x :: v)) := by
  have hxu : some x ≠ u.getLast? := hx.ne_getLast? hs
  have hxv : some x ≠ v.head? := hx.ne_head? hs
  have hne : ∀ j, ∀ z ∈ s j, z ≠ x := fun j z hz e => hx j (e ▸ hz)
  have hleft : ∀ z ∈ u, z ∈ s l := fun z hz => by rw [hs]; exact List.mem_append_left _ hz
  have hright : ∀ z ∈ v, z ∈ s l := fun z hz => by rw [hs]; exact List.mem_append_right _ hz
  have hnodup := h.apart.nodup l
  rw [hs, List.nodup_append'] at hnodup
  have hl := h.linked l
  rw [hs, linked_append] at hl
  refine ⟨_, if_neg (not_or.2 ⟨hxu, hxv⟩), ⟨fun j => ?_, ?_⟩, by simp, fun y hy hy' => ?_⟩
  -- both sides of the cut are tied to the new node, and no other list is touched
  · by_cases hj : j = l
    · subst hj
      rw [Rows.set_self, linked_append_cons]
      constructor
      · refine hl.1.moveEnd hnodup.1 (by simp) (by simp [hxv]) ?_ ?_ ?_
        · intro z hz hzu
          simp [hzu, hne j z (hleft z hz)]
        · intro z hz
          simp [h.apart.left_ne_head? hs hz, hne j z (hleft z hz)]
        · intro hu
          simp [hu]
      · refine hl.2.moveStart hnodup.2.1 (by simp [hxu]) (by simp) ?_ ?_ ?_
        · intro z hz
          simp [h.apart.right_ne_getLast? hs hz, hne j z (hright z hz)]
        · intro z hz hzv
          simp [hzv, hne j z (hright z hz)]
        · intro hv
          simp [hv]
    · rw [Rows.set_of_ne hj]
      refine h.linked_of_eq (by simp [hj]) (by simp [hj]) (fun z hz => ?_) (fun z hz => ?_)
      · simp [h.apart.ne_getLast? hs hj hz, hne j z hz]
      · simp [h.apart.ne_head? hs hj hz, hne j z hz]
  · refine Rows.apart_iff.2 fun y => ?_
    rw [Rows.tally_insert hs]
    have := Rows.apart_iff.1 h.apart y
    split
    · next e =>
        have := Rows.tally_eq_zero_iff.2 (e ▸ hx)
        omega
    · exact this
  · have hyx : y ≠ x := fun e => hy' l (by simp [e])
    simp [hy.ne_getLast? hs, hy.ne_head? hs, hyx]

/-- A node that is on no list comes behind the left side of a cut. -/
theorem insertAfter (h : p.Represents s) (hs : s l = u ++ v) (hx : s.Unlisted x) :
    ∃ q, p.insertAfter l u.getLast? x = .ok q ∧ p.Becomes s q (s.set l (u ++ x :: v)) := by
  have hanchor : p.checkAnchor l u.getLast? = .ok () := h.checkAnchor_eq fun y hy => by
    rw [hs]; exact List.mem_append_left _ (List.mem_of_getLast? hy)
  obtain ⟨q, hq, hb⟩ := h.linkBetween hs hx
  refine ⟨q, ?_, hb⟩
  rw [Pool.insertAfter, hanchor, h.after_eq hs]
  exact hq

/-- A node that is on no list comes in front of the right side of a cut. -/
theorem insertBefore (h : p.Represents s) (hs : s l = u ++ v) (hx : s.Unlisted x) :
    ∃ q, p.insertBefore l v.head? x = .ok q ∧ p.Becomes s q (s.set l (u ++ x :: v)) := by
  have hanchor : p.checkAnchor l v.head? = .ok () := h.checkAnchor_eq fun y hy => by
    rw [hs]; exact List.mem_append_right _ (List.mem_of_head? hy)
  obtain ⟨q, hq, hb⟩ := h.linkBetween hs hx
  refine ⟨q, ?_, hb⟩
  rw [Pool.insertBefore, hanchor, h.before_eq hs]
  exact hq

/-! ### Removal -/

/-- A node leaves its row. -/
theorem remove (h : p.Represents s) (hs : s l = u ++ x :: v) :
    ∃ q, p.remove l x = .ok q ∧ p.Becomes s q (s.set l (u ++ v)) ∧
      q.next x = none ∧ q.prev x = none := by
  have hxl : x ∈ s l := by simp [hs]
  have hright : s l = (u ++ [x]) ++ v := by simp [hs]
  have hnodup := h.apart.nodup l
  rw [hs, List.nodup_middle, List.nodup_cons, List.nodup_append'] at hnodup
  obtain ⟨hx, hnu, hnv, -⟩ := hnodup
  have hne : ∀ z ∈ u ++ v, z ≠ x := fun z hz e => hx (e ▸ hz)
  have hleft : ∀ z ∈ u, z ∈ u ++ v := fun z hz => List.mem_append_left _ hz
  have hxu : u.getLast? ≠ some x := fun e => hne x (hleft x (List.mem_of_getLast? e)) rfl
  have hxv : v.head? ≠ some x := fun e =>
    hne x (List.mem_append_right _ (List.mem_of_head? e)) rfl
  have hl := h.linked l
  rw [hs, linked_append_cons] at hl
  refine ⟨p.bypass l x, ?_, ⟨⟨fun j => ?_, ?_⟩, ?_, fun y hy _ => ?_⟩, ?_, ?_⟩
  · rw [Pool.remove, h.checkMember_of_mem hxl]
    rfl
  -- both sides of the node are tied to each other, and no other list is touched
  · rw [bypass, h.prev_eq hs, h.next_eq hs]
    by_cases hj : j = l
    · subst hj
      rw [Rows.set_self, linked_append]
      constructor
      · refine hl.1.moveEnd hnu (by simp [hxu]) (by simp [hxv]) ?_ ?_ ?_
        · intro z hz hzu
          simp [hzu, hne z (hleft z hz)]
        · intro z hz
          simp [hne z (hleft z hz), h.apart.left_ne_head? hright (List.mem_append_left _ hz)]
        · intro hu
          simp [hu]
      · refine hl.2.moveStart hnv (by simp [hxu]) (by simp [hxv]) ?_ ?_ ?_
        · intro z hz
          simp [hne z (List.mem_append_right _ hz),
            h.apart.right_ne_getLast? hs (List.mem_cons_of_mem _ hz)]
        · intro z hz hzv
          simp [hzv, hne z (List.mem_append_right _ hz)]
        · intro hv
          simp [hv]
    · rw [Rows.set_of_ne hj]
      have hjx : ∀ z ∈ s j, z ≠ x := fun z hz e => hj (h.apart.same_row (e ▸ hz) hxl)
      refine h.linked_of_eq (by simp [hj]) (by simp [hj]) (fun z hz => ?_) (fun z hz => ?_)
      · simp [h.apart.ne_getLast? hs hj hz, hjx z hz]
      · simp [h.apart.ne_head? hright hj hz, hjx z hz]
  · exact h.apart.of_tally_le (Rows.tally_update_le (by simp [hs]))
  · simp [bypass]
  · have hyx : y ≠ x := fun e => hy l (e ▸ hxl)
    have hyu := hy.ne_getLast? hs
    have hyv := hy.ne_head? hright
    simp [bypass, h.prev_eq hs, h.next_eq hs, hyx, hyu, hyv]
  · simp [bypass]
  · simp [bypass]

/-! ### Emptying and exchanging -/

/-- A list drops its nodes. -/
theorem clear (h : p.Represents s) (l : Fin m) : p.Becomes s (p.clear l) (s.set l []) := by
  refine ⟨⟨fun j => ?_, ?_⟩, by simp, by simp⟩
  · by_cases hj : j = l
    · subst hj
      simp [linked_nil]
    · rw [Rows.set_of_ne hj]
      exact h.linked_of_eq (by simp [hj]) (by simp [hj]) (by simp) (by simp)
  · exact h.apart.of_tally_le (Rows.tally_update_le (List.nil_sublist _))

/-- Two lists exchange their rows. -/
theorem swap (h : p.Represents s) (l k : Fin m) :
    p.Becomes s (p.swap l k) ((s.set l (s k)).set k (s l)) := by
  refine ⟨⟨fun j => ?_, ?_⟩, by simp, by simp⟩
  -- the second list comes first, since it has the last word if the two are the same
  · by_cases hjk : j = k
    · subst hjk
      rw [Rows.set_self]
      refine (h.linked l).congr ?_ ?_ (by simp) (by simp)
      · simp [Pool.swap, first]
      · simp [Pool.swap, last]
    · rw [Rows.set_of_ne hjk]
      by_cases hj : j = l
      · subst hj
        rw [Rows.set_self]
        refine (h.linked k).congr ?_ ?_ (by simp) (by simp)
        · simp [Pool.swap, hjk, first]
        · simp [Pool.swap, hjk, last]
      · rw [Rows.set_of_ne hj]
        refine h.linked_of_eq ?_ ?_ (by simp) (by simp)
        · simp [Pool.swap, hj, hjk]
        · simp [Pool.swap, hj, hjk]
  · exact h.apart.of_tally_le fun y => (Rows.tally_swap s l k y).le

end Pool.Represents

/-! ### Joining and cutting -/

namespace Pool

variable {p : Pool α n m} {l k : Fin m} {x y : Fin n}

/-- Appending ties the last position of one list to the first node of the other, whether or not the
first list has nodes. -/
theorem append_eq (hx : p.first k = some x) (hy : p.last k = some y) (hprev : p.prev x = none) :
    p.append l k =
      (((p.setAfter l (p.last l) (some x)).setPrev x (p.last l)).setLast l (some y)).clear k := by
  rw [append, hx, hy]
  cases p.last l with
  | some z => rfl
  | none =>
      refine Pool.ext (by simp) (fun z => ?_) (by simp) (by simp) (by simp)
      by_cases hz : z = x
      · simp [hz, hprev]
      · simp [hz]

/-- Cutting in front of a node ties the position in front of it to the gap, whether or not this
position is a node. -/
theorem cutBefore_eq (l : Fin m) (x : Fin n) (k : Fin m) :
    p.cutBefore l x k = (p.checkMember l x).map fun _ =>
      (((p.setAfter l (p.prev x) none).setLast l (p.prev x)).setPrev x none).setEnds k
        ⟨some x, p.last l⟩ := by
  rw [cutBefore]
  cases p.checkMember l x with
  | error e => rfl
  | ok _ =>
      cases p.prev x with
      | some y => rfl
      | none =>
          refine congrArg Except.ok (Pool.ext (by simp) (by simp) (by simp) ?_ ?_)
          · intro j; simp
          · intro j; simp

/-- Cutting behind a node ties the position behind it to the gap, whether or not this position is a
node. -/
theorem cutThrough_eq (l : Fin m) (x : Fin n) (k : Fin m) :
    p.cutThrough l x k = (p.checkMember l x).map fun _ =>
      (((p.setBefore l (p.next x) none).setFirst l (p.next x)).setNext x none).setEnds k
        ⟨p.first l, some x⟩ := by
  rw [cutThrough]
  cases p.checkMember l x with
  | error e => rfl
  | ok _ =>
      cases p.next x with
      | some y => rfl
      | none =>
          refine congrArg Except.ok (Pool.ext (by simp) (by simp) (by simp) ?_ ?_)
          · intro j; simp
          · intro j; simp

namespace Represents

variable {s : Rows n m} {u v : Row n}

/-- The row of one list goes to the back of that of another. -/
theorem append (h : p.Represents s) (hlk : l ≠ k) :
    p.Becomes s (p.append l k) ((s.set l (s l ++ s k)).set k []) := by
  cases hk : s k with
  | nil =>
      -- nothing is written, and the rows are what they were
      have hsame : (s.set l (s l ++ [])).set k [] = s := by
        funext j
        by_cases hjk : j = k
        · simp [hjk, hk]
        · by_cases hjl : j = l
          · simp [hjl, hlk]
          · rw [Rows.set_of_ne hjk, Rows.set_of_ne hjl]
      have happ : p.append l k = p := by
        rw [Pool.append, h.first_eq, hk]
        rfl
      rw [hsame, happ]
      exact h.becomes_refl
  | cons x v =>
      obtain ⟨y, hy⟩ : ∃ y, (x :: v).getLast? = some y := ⟨_, List.getLast?_cons⟩
      have hprev : p.prev x = none := h.prev_eq (u := []) hk
      have hxk : x ∈ s k := by simp [hk]
      have hend : s l = s l ++ [] := by simp
      have hxl : ∀ z ∈ s l, z ≠ x := fun z hz e => hlk (h.apart.same_row (e ▸ hz) hxk)
      have hlast : p.last l = (s l).getLast? := h.last_eq l
      rw [append_eq (by rw [h.first_eq, hk]; rfl) (by rw [h.last_eq, hk, hy]) hprev, hlast, ← hk]
      refine ⟨⟨fun j => ?_, ?_⟩, by simp, fun z hz _ => ?_⟩
      -- the second list is empty now; the first is tied to its row at the seam
      · by_cases hjk : j = k
        · subst hjk
          rw [Rows.set_self]
          exact ⟨by simp, by simp⟩
        · rw [Rows.set_of_ne hjk]
          by_cases hjl : j = l
          · subst hjl
            rw [Rows.set_self, linked_append]
            constructor
            · refine (h.linked j).moveEnd (h.apart.nodup j) ?_ ?_ ?_ ?_ ?_
              · simp [hk, hjk]
              · simp [hk]
              · intro z hz hzl
                simp [hzl]
              · intro z hz
                simp [hxl z hz]
              · intro hne
                simp [hne, hjk]
            · refine (h.linked k).moveStart (h.apart.nodup k) ?_ ?_ ?_ ?_ ?_
              · simp [hk, hjk]
              · simp [hk]
              · intro z hz
                simp [h.apart.ne_getLast? hend hlk.symm hz]
              · intro z hz hzk
                have hzx : z ≠ x := fun e => hzk (by simp [hk, e])
                simp [hzx]
              · intro _
                simp [hjk, h.last_eq k, hk, hy]
          · rw [Rows.set_of_ne hjl]
            refine h.linked_of_eq (by simp [hjk, hjl]) (by simp [hjk, hjl]) ?_ ?_
            · intro z hz
              simp [h.apart.ne_getLast? hend hjl hz]
            · intro z hz
              have hzx : z ≠ x := fun e => hjk (h.apart.same_row (e ▸ hz) hxk)
              simp [hzx]
      · exact h.apart.of_tally_le fun z => (Rows.tally_append hlk z).le
      · have hzx : z ≠ x := fun e => hz k (e ▸ hxk)
        simp [hz.ne_getLast? hend, hzx]

/-- A node and all behind it go to another list. -/
theorem cutBefore (h : p.Represents s) (hs : s l = u ++ x :: v) (hlk : l ≠ k) :
    ∃ q, p.cutBefore l x k = .ok q ∧ p.Becomes s q ((s.set l u).set k (x :: v)) := by
  have hxl : x ∈ s l := by simp [hs]
  have hnodup := h.apart.nodup l
  rw [hs, List.nodup_append'] at hnodup
  have hxu : ∀ z ∈ u, z ≠ x := fun z hz e => hnodup.2.2 (e ▸ hz) (by simp)
  have hxv : ∀ z ∈ v, z ≠ x := fun z hz e => (List.nodup_cons.1 hnodup.2.1).1 (e ▸ hz)
  have hux : u.getLast? ≠ some x := fun e => hxu x (List.mem_of_getLast? e) rfl
  have hl := h.linked l
  rw [hs, linked_append_cons] at hl
  have hlast : p.last l = v.getLast?.or (some x) := by
    rw [h.last_eq, hs]
    simp [List.getLast?_cons]
  refine ⟨_, by rw [cutBefore_eq, h.checkMember_of_mem hxl]; rfl, ⟨fun j => ?_, ?_⟩, by simp,
    fun z hz _ => ?_⟩
  -- the list that takes the node over, the list that is cut, and all others
  · rw [h.prev_eq hs]
    by_cases hjk : j = k
    · subst hjk
      rw [Rows.set_self]
      refine ⟨⟨by simp, by simp⟩, hl.2.congr ?_ ?_ ?_ ?_⟩
      · simp [hux.symm]
      · simp
      · intro z hz
        simp [h.apart.right_ne_getLast? hs (List.mem_cons_of_mem _ hz)]
      · intro z hz
        simp [hxv z hz]
    · rw [Rows.set_of_ne hjk]
      by_cases hjl : j = l
      · subst hjl
        rw [Rows.set_self]
        refine hl.1.moveEnd hnodup.1 ?_ ?_ ?_ ?_ ?_
        · simp [hjk]
        · simp [hjk]
        · intro z hz hzu
          simp [hzu]
        · intro z hz
          simp [hxu z hz]
        · intro hu
          simp [hu, hjk]
      · rw [Rows.set_of_ne hjl]
        refine h.linked_of_eq (by simp [hjk, hjl]) (by simp [hjk, hjl]) ?_ ?_
        · intro z hz
          simp [h.apart.ne_getLast? hs hjl hz]
        · intro z hz
          have hzx : z ≠ x := fun e => hjl (h.apart.same_row (e ▸ hz) hxl)
          simp [hzx]
  · exact h.apart.of_tally_le (Rows.tally_cut_le hlk (by rw [hs]))
  · have hzx : z ≠ x := fun e => hz l (e ▸ hxl)
    simp [h.prev_eq hs, hz.ne_getLast? hs, hzx]

/-- A node and all in front of it go to another list. -/
theorem cutThrough (h : p.Represents s) (hs : s l = u ++ x :: v) (hlk : l ≠ k) :
    ∃ q, p.cutThrough l x k = .ok q ∧ p.Becomes s q ((s.set l v).set k (u ++ [x])) := by
  have hxl : x ∈ s l := by simp [hs]
  have hright : s l = (u ++ [x]) ++ v := by simp [hs]
  have hnodup := h.apart.nodup l
  rw [hs, List.nodup_append'] at hnodup
  have hxu : ∀ z ∈ u, z ≠ x := fun z hz e => hnodup.2.2 (e ▸ hz) (by simp)
  have hxv : ∀ z ∈ v, z ≠ x := fun z hz e => (List.nodup_cons.1 hnodup.2.1).1 (e ▸ hz)
  have hvx : v.head? ≠ some x := fun e => hxv x (List.mem_of_head? e) rfl
  have hl := h.linked l
  rw [hs, linked_append_cons] at hl
  refine ⟨_, by rw [cutThrough_eq, h.checkMember_of_mem hxl]; rfl, ⟨fun j => ?_, ?_⟩, by simp,
    fun z hz _ => ?_⟩
  · rw [h.next_eq hs]
    by_cases hjk : j = k
    · subst hjk
      rw [Rows.set_self, linked_append_cons]
      refine ⟨hl.1.congr ?_ ?_ ?_ ?_, by simp, by simp⟩
      · simp
      · simp [hvx.symm]
      · intro z hz
        simp [hxu z hz]
      · intro z hz
        simp [h.apart.left_ne_head? hright (List.mem_append_left _ hz)]
    · rw [Rows.set_of_ne hjk]
      by_cases hjl : j = l
      · subst hjl
        rw [Rows.set_self]
        refine hl.2.moveStart (List.nodup_cons.1 hnodup.2.1).2 ?_ ?_ ?_ ?_ ?_
        · simp [hjk]
        · simp [hjk]
        · intro z hz
          simp [hxv z hz]
        · intro z hz hzv
          simp [hzv]
        · intro hv
          simp [hv, hjk]
      · rw [Rows.set_of_ne hjl]
        refine h.linked_of_eq (by simp [hjk, hjl]) (by simp [hjk, hjl]) ?_ ?_
        · intro z hz
          have hzx : z ≠ x := fun e => hjl (h.apart.same_row (e ▸ hz) hxl)
          simp [hzx]
        · intro z hz
          simp [h.apart.ne_head? hright hjl hz]
  · refine h.apart.of_tally_le (Rows.tally_cut_le hlk ?_)
    rw [hright]
    exact List.perm_append_comm
  · have hzx : z ≠ x := fun e => hz l (e ▸ hxl)
    simp [h.next_eq hs, hz.ne_head? hright, hzx]

/-! ### At a position that is named -/

variable {a : Option (Fin n)}

/-- A node comes behind a position. -/
theorem insertAfter_position (h : p.Represents s) (ha : ∀ y ∈ a, y ∈ s l) (hx : s.Unlisted x) :
    ∃ q, p.insertAfter l a x = .ok q ∧ p.Becomes s q (s.set l (Row.insertAfter (s l) a x)) := by
  obtain ⟨u, v, hs, rfl, hrow⟩ := Row.exists_cut_behind ha
  rw [hrow]
  exact h.insertAfter hs hx

/-- A node comes in front of a position. -/
theorem insertBefore_position (h : p.Represents s) (ha : ∀ y ∈ a, y ∈ s l) (hx : s.Unlisted x) :
    ∃ q, p.insertBefore l a x = .ok q ∧ p.Becomes s q (s.set l (Row.insertBefore (s l) a x)) := by
  obtain ⟨u, v, hs, rfl, hrow⟩ := Row.exists_cut_ahead ha
  rw [hrow]
  exact h.insertBefore hs hx

/-- A member leaves its list and has no links then. -/
theorem remove_member (h : p.Represents s) (hx : x ∈ s l) :
    ∃ q, p.remove l x = .ok q ∧ p.Becomes s q (s.set l ((s l).erase x)) ∧
      q.next x = none ∧ q.prev x = none := by
  obtain ⟨u, v, hs, hu⟩ := Row.exists_eq_append_cons hx
  have herase : (s l).erase x = u ++ v := by
    rw [hs, List.erase_append_right _ hu, List.erase_cons_head]
  rw [herase]
  exact h.remove hs

/-- The first node leaves its list, if there is one. -/
theorem popFront (h : p.Represents s) (l : Fin m) :
    ∃ q, p.popFront l = .ok ((s l).head?, q) ∧ p.Becomes s q (s.set l (s l).tail) ∧
      ∀ x ∈ (s l).head?, q.next x = none ∧ q.prev x = none := by
  rw [Pool.popFront, h.first_eq]
  cases hs : s l with
  | nil =>
      refine ⟨p, rfl, ?_, by simp⟩
      rw [List.tail_nil, ← hs, Rows.set_eq_self]
      exact h.becomes_refl
  | cons x v =>
      obtain ⟨q, hq, hb, hlinks⟩ := h.remove (u := []) hs
      refine ⟨q, ?_, hb, ?_⟩
      · rw [List.head?_cons]
        simp only [hq]
        rfl
      · rintro y ⟨⟩
        exact hlinks

/-- The last node leaves its list, if there is one. -/
theorem popBack (h : p.Represents s) (l : Fin m) :
    ∃ q, p.popBack l = .ok ((s l).getLast?, q) ∧ p.Becomes s q (s.set l (s l).dropLast) ∧
      ∀ x ∈ (s l).getLast?, q.next x = none ∧ q.prev x = none := by
  rw [Pool.popBack, h.last_eq]
  cases hx : (s l).getLast? with
  | none =>
      have hs : s l = [] := List.getLast?_eq_none_iff.1 hx
      refine ⟨p, rfl, ?_, by simp⟩
      rw [hs, List.dropLast_nil, ← hs, Rows.set_eq_self]
      exact h.becomes_refl
  | some x =>
      obtain ⟨u, hs⟩ := List.getLast?_eq_some_iff.1 hx
      obtain ⟨q, hq, hb, hlinks⟩ := h.remove hs
      refine ⟨q, ?_, ?_, ?_⟩
      · simp only [hq]
        rfl
      · rw [hs, List.dropLast_concat]
        simpa using hb
      · rintro y ⟨⟩
        exact hlinks

/-- A member and all behind it go to another list. -/
theorem cutBefore_member (h : p.Represents s) (hx : x ∈ s l) (hlk : l ≠ k) :
    ∃ q, p.cutBefore l x k = .ok q ∧
      p.Becomes s q ((s.set l (Row.front x (s l))).set k (Row.back x (s l))) := by
  obtain ⟨u, v, hs, hu⟩ := Row.exists_eq_append_cons hx
  rw [hs, Row.front_append_cons hu, Row.back_append_cons hu]
  exact h.cutBefore hs hlk

/-- A member and all in front of it go to another list. -/
theorem cutThrough_member (h : p.Represents s) (hx : x ∈ s l) (hlk : l ≠ k) :
    ∃ q, p.cutThrough l x k = .ok q ∧
      p.Becomes s q ((s.set l (Row.back x (s l)).tail).set k (Row.front x (s l) ++ [x])) := by
  obtain ⟨u, v, hs, hu⟩ := Row.exists_eq_append_cons hx
  rw [hs, Row.front_append_cons hu, Row.back_append_cons hu]
  exact h.cutThrough hs hlk

end Represents

end Pool

end SpanChain
