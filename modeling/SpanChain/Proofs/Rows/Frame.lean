/-
**Links that an operation leaves alone.**

An operation on lists writes to the links of nodes on the lists that it is about, and of the node
that it puts in.  All other nodes keep their links: those on other lists, those on no list, and
those that are dropped because the operation overwrites the list they were on.

Main definitions:

* `SpanChain.Pool.SameLinks` — a node has kept its links.

Main results:

* `SpanChain.Pool.Represents.after_mem`, `SpanChain.Pool.Represents.before_mem` — the neighbours of a
  position of a list are members of it;
* `SpanChain.Pool.Represents.sameLinks_insertAfter` and its like — what each operation leaves alone;
* `SpanChain.Pool.Represents.sameLinks_of_row` — a row fixes the links of its nodes;
* `SpanChain.Pool.Change.links_of_unlisted` — no change gives links to a node on no list.
-/

import SpanChain.Proofs.Rows.Guard

set_option relaxedAutoImplicit false
set_option autoImplicit false

namespace SpanChain

variable {α : Type} {n m : Nat}

namespace Pool

/-- The node has the links in the pool `q` that it has in the pool `p`. -/
structure SameLinks (p q : Pool α n m) (y : Fin n) : Prop where
  next : q.next y = p.next y
  prev : q.prev y = p.prev y

theorem SameLinks.refl (p : Pool α n m) (y : Fin n) : p.SameLinks p y := ⟨rfl, rfl⟩

theorem SameLinks.trans {p q r : Pool α n m} {y : Fin n} (h : p.SameLinks q y)
    (h' : q.SameLinks r y) : p.SameLinks r y :=
  ⟨h'.next.trans h.next, h'.prev.trans h.prev⟩

variable {p q : Pool α n m} {s t : Rows n m} {l k : Fin m} {x y : Fin n} {a b : Option (Fin n)}

theorem sameLinks_setData (p : Pool α n m) (x : Fin n) (d : α) (y : Fin n) :
    p.SameLinks (p.setData x d) y :=
  ⟨next_setData .., prev_setData ..⟩

theorem sameLinks_unlink (p : Pool α n m) (h : y ≠ x) : p.SameLinks (p.unlink x) y :=
  ⟨by simp [h], by simp [h]⟩

/-- Linking a node in writes to its links and those of its two neighbours. -/
theorem sameLinks_linkBetween (hq : p.linkBetween l a x b = .ok q) (hx : y ≠ x)
    (ha : some y ≠ a) (hb : some y ≠ b) : p.SameLinks q y := by
  rw [linkBetween] at hq
  split at hq
  · contradiction
  · obtain rfl := Except.ok.inj hq
    exact ⟨by simp [hx, ha], by simp [hx, hb]⟩

namespace Represents

/-! ### Neighbours of a position -/

/-- What comes behind a position of a list is a member of it. -/
theorem after_mem (h : p.Represents s) (ha : ∀ z ∈ a, z ∈ s l) : ∀ z ∈ p.after l a, z ∈ s l := by
  cases a with
  | none =>
      intro z hz
      rw [after_none, h.first_eq] at hz
      exact List.mem_of_head? hz
  | some x =>
      obtain ⟨u, v, hs, -⟩ := Row.exists_eq_append_cons (ha x rfl)
      intro z hz
      rw [after_some, h.next_eq hs] at hz
      rw [hs]
      exact List.mem_append_right _ (List.mem_cons_of_mem _ (List.mem_of_head? hz))

/-- What comes in front of a position of a list is a member of it. -/
theorem before_mem (h : p.Represents s) (ha : ∀ z ∈ a, z ∈ s l) :
    ∀ z ∈ p.before l a, z ∈ s l := by
  cases a with
  | none =>
      intro z hz
      rw [before_none, h.last_eq] at hz
      exact List.mem_of_getLast? hz
  | some x =>
      obtain ⟨u, v, hs, -⟩ := Row.exists_eq_append_cons (ha x rfl)
      intro z hz
      rw [before_some, h.prev_eq hs] at hz
      rw [hs]
      exact List.mem_append_left _ (List.mem_of_getLast? hz)

/-- A node that is not on a list is none of the positions that are. -/
theorem ne_position (hy : y ∉ s l) (ha : ∀ z ∈ a, z ∈ s l) : some y ≠ a := by
  rintro rfl
  exact hy (ha y rfl)

/-! ### What each operation leaves alone -/

theorem sameLinks_insertAfter (h : p.Represents s) (hq : p.insertAfter l a x = .ok q)
    (hy : y ∉ s l) (hx : y ≠ x) : p.SameLinks q y := by
  obtain ⟨_, hcheck, hlink⟩ := bind_eq_ok.1 hq
  have ha := mem_of_checkAnchor hcheck
  rw [h.members_eq] at ha
  exact sameLinks_linkBetween hlink hx (ne_position hy ha) (ne_position hy (h.after_mem ha))

theorem sameLinks_insertBefore (h : p.Represents s) (hq : p.insertBefore l a x = .ok q)
    (hy : y ∉ s l) (hx : y ≠ x) : p.SameLinks q y := by
  obtain ⟨_, hcheck, hlink⟩ := bind_eq_ok.1 hq
  have ha := mem_of_checkAnchor hcheck
  rw [h.members_eq] at ha
  exact sameLinks_linkBetween hlink hx (ne_position hy (h.before_mem ha)) (ne_position hy ha)

theorem sameLinks_remove (h : p.Represents s) (hq : p.remove l x = .ok q) (hy : y ∉ s l) :
    p.SameLinks q y := by
  obtain ⟨_, hcheck, heq⟩ := bind_eq_ok.1 hq
  obtain rfl := Except.ok.inj heq
  have hx := mem_of_checkMember hcheck
  rw [h.members_eq] at hx
  have hxa : ∀ z ∈ some x, z ∈ s l := by rintro z ⟨⟩; exact hx
  have hyx : y ≠ x := fun e => hy (e ▸ hx)
  have hprev : some y ≠ p.prev x := ne_position hy (h.before_mem hxa)
  have hnext : some y ≠ p.next x := ne_position hy (h.after_mem hxa)
  exact ⟨by simp [bypass, hyx, hprev], by simp [bypass, hyx, hnext]⟩

theorem sameLinks_append (h : p.Represents s) (hl : y ∉ s l) (hk : y ∉ s k) :
    p.SameLinks (p.append l k) y := by
  have hlast : some y ≠ p.last l := ne_position hl (h.before_mem (a := none) (by simp))
  have hfirst : some y ≠ p.first k := ne_position hk (h.after_mem (a := none) (by simp))
  rw [Pool.append]
  split
  · next x z hx hz =>
      have hyx : y ≠ x := fun e => hfirst (e ▸ hx.symm)
      cases hw : p.last l with
      | none => exact ⟨by simp, by simp⟩
      | some w =>
          have hyw : y ≠ w := fun e => hlast (e ▸ hw.symm)
          exact ⟨by simp [hyw], by simp [hyx]⟩
  · exact .refl p y

/-- A cut writes to the links of the list that is cut, not to those of the tail that is
overwritten. -/
theorem sameLinks_cutBefore (h : p.Represents s) (hq : p.cutBefore l x k = .ok q) (hy : y ∉ s l) :
    p.SameLinks q y := by
  obtain ⟨_, hcheck, -⟩ := bind_eq_ok.1 hq
  rw [cutBefore_eq, hcheck] at hq
  obtain rfl := Except.ok.inj hq
  have hx := mem_of_checkMember hcheck
  rw [h.members_eq] at hx
  have hyx : y ≠ x := fun e => hy (e ▸ hx)
  have hprev : some y ≠ p.prev x :=
    ne_position hy (h.before_mem (a := some x) (by rintro z ⟨⟩; exact hx))
  exact ⟨by simp [hprev], by simp [hyx]⟩

theorem sameLinks_cutThrough (h : p.Represents s) (hq : p.cutThrough l x k = .ok q)
    (hy : y ∉ s l) : p.SameLinks q y := by
  obtain ⟨_, hcheck, -⟩ := bind_eq_ok.1 hq
  rw [cutThrough_eq, hcheck] at hq
  obtain rfl := Except.ok.inj hq
  have hx := mem_of_checkMember hcheck
  rw [h.members_eq] at hx
  have hyx : y ≠ x := fun e => hy (e ▸ hx)
  have hnext : some y ≠ p.next x :=
    ne_position hy (h.after_mem (a := some x) (by rintro z ⟨⟩; exact hx))
  exact ⟨by simp [hyx], by simp [hnext]⟩

/-- Two pools that stand for the same row on a list have the same links along it. -/
theorem sameLinks_of_row (h : p.Represents s) (h' : q.Represents t) (hrow : t l = s l)
    (hy : y ∈ s l) : p.SameLinks q y := by
  obtain ⟨u, v, hs, -⟩ := Row.exists_eq_append_cons hy
  have ht : t l = u ++ y :: v := hrow.trans hs
  exact ⟨(h'.next_eq ht).trans (h.next_eq hs).symm, (h'.prev_eq ht).trans (h.prev_eq hs).symm⟩

end Represents

/-! ### Nodes on no list -/

/-- **A node that is on no list after a change has its links from before, or none.**  It may have
been on a list: one that the change has removed has no links, and one that was dropped with its list
keeps them. -/
theorem Change.links_of_unlisted (hc : Change p q) (h : p.WellFormed)
    (hy : Rows.Unlisted q.members y) : p.SameLinks q y ∨ q.next y = none ∧ q.prev y = none := by
  cases hc with
  | data x d => exact .inl (sameLinks_setData p x d y)
  | @unlink x hx =>
      by_cases hyx : y = x
      · exact .inr ⟨by simp [hyx], by simp [hyx]⟩
      · exact .inl (sameLinks_unlink p hyx)
  | clear l => exact .inl ⟨next_clear .., prev_clear ..⟩
  | swap l k => exact .inl ⟨next_swap .., prev_swap ..⟩
  | @insertAfter l a x _ hx hq =>
      obtain ⟨_, hcheck, -⟩ := bind_eq_ok.1 hq
      obtain ⟨u, v, hs, rfl, -⟩ := Row.exists_cut_behind (mem_of_checkAnchor hcheck)
      obtain ⟨q', hq', hb⟩ := h.insertAfter hs hx
      obtain rfl := Except.ok.inj (hq.symm.trans hq')
      have hyl := hy l
      rw [hb.represents.members_eq, Rows.set_self] at hyl
      simp only [List.mem_append, List.mem_cons, not_or] at hyl
      exact .inl (h.sameLinks_insertAfter hq (by simp [hs, hyl]) hyl.2.1)
  | @insertBefore l a x _ hx hq =>
      obtain ⟨_, hcheck, -⟩ := bind_eq_ok.1 hq
      obtain ⟨u, v, hs, rfl, -⟩ := Row.exists_cut_ahead (mem_of_checkAnchor hcheck)
      obtain ⟨q', hq', hb⟩ := h.insertBefore hs hx
      obtain rfl := Except.ok.inj (hq.symm.trans hq')
      have hyl := hy l
      rw [hb.represents.members_eq, Rows.set_self] at hyl
      simp only [List.mem_append, List.mem_cons, not_or] at hyl
      exact .inl (h.sameLinks_insertBefore hq (by simp [hs, hyl]) hyl.2.1)
  | @remove l x _ hq =>
      obtain ⟨_, hcheck, -⟩ := bind_eq_ok.1 hq
      obtain ⟨u, v, hs, -⟩ := Row.exists_eq_append_cons (mem_of_checkMember hcheck)
      obtain ⟨q', hq', hb, hlinks⟩ := Represents.remove h hs
      obtain rfl := Except.ok.inj (hq.symm.trans hq')
      by_cases hyx : y = x
      · exact .inr (hyx ▸ hlinks)
      · have hyl := hy l
        rw [hb.represents.members_eq, Rows.set_self, List.mem_append, not_or] at hyl
        exact .inl (h.sameLinks_remove hq (by simp [hs, hyl, hyx]))
  | @append l k hlk =>
      have hyl := hy l
      rw [(h.append hlk).represents.members_eq, Rows.set_of_ne hlk, Rows.set_self,
        List.mem_append, not_or] at hyl
      exact .inl (h.sameLinks_append hyl.1 hyl.2)
  | @cutBefore l k x _ hlk hq =>
      obtain ⟨_, hcheck, -⟩ := bind_eq_ok.1 hq
      obtain ⟨u, v, hs, -⟩ := Row.exists_eq_append_cons (mem_of_checkMember hcheck)
      obtain ⟨q', hq', hb⟩ := Represents.cutBefore h hs hlk
      obtain rfl := Except.ok.inj (hq.symm.trans hq')
      have hyl := hy l
      have hyk := hy k
      rw [hb.represents.members_eq, Rows.set_of_ne hlk, Rows.set_self] at hyl
      rw [hb.represents.members_eq, Rows.set_self] at hyk
      exact .inl (h.sameLinks_cutBefore hq (by rw [hs, List.mem_append, not_or]; exact ⟨hyl, hyk⟩))
  | @cutThrough l k x _ hlk hq =>
      obtain ⟨_, hcheck, -⟩ := bind_eq_ok.1 hq
      obtain ⟨u, v, hs, -⟩ := Row.exists_eq_append_cons (mem_of_checkMember hcheck)
      obtain ⟨q', hq', hb⟩ := Represents.cutThrough h hs hlk
      obtain rfl := Except.ok.inj (hq.symm.trans hq')
      have hyl := hy l
      have hyk := hy k
      rw [hb.represents.members_eq, Rows.set_of_ne hlk, Rows.set_self] at hyl
      rw [hb.represents.members_eq, Rows.set_self] at hyk
      refine .inl (h.sameLinks_cutThrough hq ?_)
      rw [hs, List.append_cons, List.mem_append, not_or]
      exact ⟨hyk, hyl⟩

end Pool

end SpanChain
