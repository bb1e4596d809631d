/-
**Cuts and joins undo each other.**

A list that is cut and joined again is what it was, and so are two lists that are joined and cut
where they met: not only are the rows the same, but every link and every end is.  For the links of
the nodes in the rows are fixed by the rows, and no operation writes to those of other nodes.  All
that is lost is what the list held that takes the tail of a cut; its nodes are dropped with the links
that they had.

Main definitions:

* `SpanChain.ListSession.LeadsTo` — the steps are carried out and lead to a state.

Main results:

* `SpanChain.Pool.Represents.eq_of_rows` — the rows and what is on no list determine a pool;
* `SpanChain.Pool.append_cutBefore`, `SpanChain.Pool.swap_append_cutThrough`,
  `SpanChain.Pool.cutBefore_append` — a join after a cut, on either side of it, and a cut after a
  join;
* `SpanChain.Cursor.appendAtSeam_cutBefore` — the same through a cursor;
* `SpanChain.cuts_and_joins_cancel` — **all of this in a session**.
-/

import SpanChain.Proofs.Cursors.Zipper
import SpanChain.Proofs.Rows.Frame

set_option relaxedAutoImplicit false
set_option autoImplicit false

namespace SpanChain

variable {α : Type} {n m k : Nat}

/-! ### Rows -/

namespace Rows

variable {s : Rows n m} {l t : Fin m} {u v : Row n}

/-- The two sides of a cut, put together again. -/
theorem append_cut (hlt : l ≠ t) (hs : s l = u ++ v) :
    (((s.set l u).set t v).set l (u ++ v)).set t [] = s.set t [] := by
  have hback : (s.set l u).set l (u ++ v) = s := by rw [set_set, ← hs, set_eq_self]
  rw [← set_comm hlt, set_set, hback]

/-- Two rows that are cut where they were put together. -/
theorem cut_append (hlt : l ≠ t) (w : Row n) :
    (((s.set l w).set t []).set l (s l)).set t (s t) = s := by
  have hback : (s.set l w).set l (s l) = s := by rw [set_set, set_eq_self]
  rw [← set_comm hlt, set_set, hback, set_eq_self]

/-- The two sides of a cut that went to the other list each, put together there and exchanged. -/
theorem swap_cut (hlt : l ≠ t) (v w : Row n) :
    (((((s.set l v).set t w).set t (s l)).set l []).set t []).set l (s l) = s.set t [] := by
  funext j
  by_cases hjl : j = l
  · subst hjl
    rw [set_self, set_of_ne hlt]
  · rw [set_of_ne hjl]
    by_cases hjt : j = t
    · subst hjt
      rw [set_self, set_self]
    · rw [set_of_ne hjt, set_of_ne hjl, set_of_ne hjt, set_of_ne hjt, set_of_ne hjl,
        set_of_ne hjt]

end Rows

/-! ### Pools -/

namespace Pool

variable {p q : Pool α n m} {s r : Rows n m} {l t : Fin m} {x y : Fin n} {u v w : Row n}

/-- **Two pools are equal that stand for the same rows**, if their nodes carry the same and those on
no list have the same links. -/
theorem Represents.eq_of_rows (h : p.Represents s) (hq : q.Represents s)
    (hdata : ∀ y, q.data y = p.data y) (hlinks : ∀ y, s.Unlisted y → p.SameLinks q y) :
    q = p := by
  have hall : ∀ y, p.SameLinks q y := by
    intro y
    by_cases hy : s.Unlisted y
    · exact hlinks y hy
    · simp only [Rows.Unlisted, not_forall, not_not] at hy
      obtain ⟨l, hl⟩ := hy
      exact h.sameLinks_of_row hq rfl hl
  refine Pool.ext (fun y => (hall y).next) (fun y => (hall y).prev) hdata ?_ ?_
  · intro l
    rw [hq.first_eq, h.first_eq]
  · intro l
    rw [hq.last_eq, h.last_eq]

/-- Where a list is the only one whose nodes are dropped, and no link was written to but along
another, all is as if the list had been emptied. -/
theorem Represents.eq_clear (h : p.Represents s) (hlt : l ≠ t) (hq : q.Represents (s.set t []))
    (hdata : ∀ y, q.data y = p.data y) (hlinks : ∀ y, y ∉ s l → p.SameLinks q y) :
    q = p.clear t := by
  refine (h.clear t).represents.eq_of_rows hq (fun y => (hdata y).trans (data_clear ..).symm) ?_
  intro y hy
  have hyl := hy l
  rw [Rows.set_of_ne hlt] at hyl
  exact ⟨(hlinks y hyl).next, (hlinks y hyl).prev⟩

/-- Appending the tail of a cut again. -/
theorem append_cutBefore (h : p.Represents s) (hlt : l ≠ t) (hs : s l = u ++ x :: v) :
    ∃ q, p.cutBefore l x t = .ok q ∧ q.first t = some x ∧ q.append l t = p.clear t := by
  obtain ⟨q, hq, hb⟩ := h.cutBefore hs hlt
  have hrep := hb.represents
  have hleft : ((s.set l u).set t (x :: v)) l = u := by rw [Rows.set_of_ne hlt, Rows.set_self]
  have hright : ((s.set l u).set t (x :: v)) t = x :: v := Rows.set_self ..
  have hb' := hrep.append hlt
  rw [hleft, hright, Rows.append_cut hlt hs] at hb'
  refine ⟨q, hq, by rw [hrep.first_eq, hright]; rfl, ?_⟩
  refine h.eq_clear hlt hb'.represents (fun y => (hb'.data y).trans (hb.data y)) fun y hy => ?_
  refine (h.sameLinks_cutBefore hq hy).trans (hrep.sameLinks_append ?_ ?_)
  · rw [hleft]
    exact fun hyu => hy (by rw [hs]; exact List.mem_append_left _ hyu)
  · rw [hright]
    exact fun hyv => hy (by rw [hs]; exact List.mem_append_right _ hyv)

/-- Appending an empty list changes nothing. -/
theorem append_of_empty (ht : p.first t = none) : p.append l t = p := by
  rw [append, ht]

/-- Putting the rest of a list behind what was cut off in front, and exchanging the two lists. -/
theorem swap_append_cutThrough (h : p.Represents s) (hlt : l ≠ t) (hs : s l = u ++ x :: v) :
    ∃ q, p.cutThrough l x t = .ok q ∧ (q.append t l).swap t l = p.clear t := by
  obtain ⟨q, hq, hb⟩ := h.cutThrough hs hlt
  have hrep := hb.represents
  have hcut : s l = (u ++ [x]) ++ v := by rw [hs, List.append_cons]
  have hleft : ((s.set l v).set t (u ++ [x])) l = v := by rw [Rows.set_of_ne hlt, Rows.set_self]
  have hright : ((s.set l v).set t (u ++ [x])) t = u ++ [x] := Rows.set_self ..
  have hb₁ := hrep.append hlt.symm
  rw [hleft, hright, ← hcut] at hb₁
  have hb₂ := hb₁.represents.swap t l
  rw [Rows.set_self, Rows.set_of_ne hlt.symm, Rows.set_self, Rows.swap_cut hlt] at hb₂
  refine ⟨q, hq, ?_⟩
  refine h.eq_clear hlt hb₂.represents
    (fun y => (hb₂.data y).trans ((hb₁.data y).trans (hb.data y))) fun y hy => ?_
  rw [hcut, List.mem_append, not_or] at hy
  have hcutLinks : p.SameLinks q y :=
    h.sameLinks_cutThrough hq (by rw [hcut, List.mem_append, not_or]; exact hy)
  have happend : q.SameLinks (q.append t l) y :=
    hrep.sameLinks_append (by rw [hright]; exact hy.1) (by rw [hleft]; exact hy.2)
  -- exchanging two lists writes to no link
  exact (hcutLinks.trans happend).trans ⟨next_swap .., prev_swap ..⟩

/-- Cutting two lists where they were put together. -/
theorem cutBefore_append (h : p.Represents s) (hlt : l ≠ t) (hs : s t = x :: v) :
    (p.append l t).cutBefore l x t = .ok p := by
  have hb := h.append hlt
  have hrep := hb.represents
  have hrow : ((s.set l (s l ++ s t)).set t []) l = s l ++ x :: v := by
    rw [Rows.set_of_ne hlt, Rows.set_self, hs]
  obtain ⟨q, hq, hb'⟩ := hrep.cutBefore hrow hlt
  rw [← hs, Rows.cut_append hlt] at hb'
  rw [hq]
  refine congrArg Except.ok ?_
  refine h.eq_of_rows hb'.represents (fun y => (hb'.data y).trans (hb.data y)) fun y hy => ?_
  refine (h.sameLinks_append (hy l) (hy t)).trans (hrep.sameLinks_cutBefore hq ?_)
  rw [hrow, ← hs]
  exact fun hmem => (List.mem_append.1 hmem).elim (hy l) (hy t)

end Pool

/-! ### Cursors -/

/-- A cursor whose list is cut in front of it, and then put together again where it stands, is where it
was. -/
theorem Cursor.appendAtSeam_cutBefore {p : Pool α n m} {s : Rows n m} {c : Cursor .forward n m}
    {t : Fin m} (h : p.Represents s) (hlt : c.list ≠ t) (hc : ∀ x ∈ c.node, x ∈ s c.list) :
    ∃ q, c.cutBefore p t = .ok (q, ⟨t, c.node⟩) ∧ appendAtSeam q c.list t = (p.clear t, c) := by
  obtain ⟨l, node⟩ := c
  cases node with
  | none =>
      have hempty : (p.clear t).first t = none := by rw [Pool.first_clear, if_pos rfl]
      refine ⟨p.clear t, ?_, ?_⟩
      · simp only [cutBefore, cutInto, if_neg hlt, bind, Except.bind, pure, Except.pure]
      · rw [appendAtSeam, hempty, Pool.append_of_empty hempty]
  | some x =>
      obtain ⟨u, v, hs, -⟩ := Row.exists_eq_append_cons (hc x rfl)
      obtain ⟨q, hq, hfirst, hback⟩ := Pool.append_cutBefore h hlt hs
      refine ⟨q, ?_, ?_⟩
      · simp only [cutBefore, cutInto, if_neg hlt, Pool.cutFrom_forward, hq, bind, Except.bind, pure,
          Except.pure]
      · rw [appendAtSeam, hback, hfirst]

/-! ### Sessions -/

namespace ListSession

/-- The steps are carried out one after the other, with nothing to be answered, and lead to the state
`final`. -/
def LeadsTo (s : ListSession α n m k) (steps : List (Step α n m k)) (final : ListSession α n m k) :
    Prop :=
  ∃ outcomes, Session.run step s steps = (outcomes, .ok final) ∧ ∀ o ∈ outcomes, o.reply = .done

variable {s s' final : ListSession α n m k} {t : Step α n m k} {steps : List (Step α n m k)}
  {c : Cursor .forward n m} {slot : Fin k} {l tail : Fin m} {q : Pool α n m}

theorem LeadsTo.refl (s : ListSession α n m k) : s.LeadsTo [] s := ⟨[], rfl, by simp⟩

theorem LeadsTo.cons (h : s.step t = .ok (s'.answer .done)) (hrest : s'.LeadsTo steps final) :
    s.LeadsTo (t :: steps) final := by
  obtain ⟨outcomes, hrun, hdone⟩ := hrest
  refine ⟨_, Session.run_cons_of_run step h hrun, fun o ho => ?_⟩
  rcases List.mem_cons.1 ho with rfl | hmem
  · rfl
  · exact hdone o hmem

/-- An edit whose preconditions hold has its effect. -/
theorem step_edit {e : ListEdit n m} {r : Reply α n} (he : e.isSound = true)
    (hq : e.effect s.pool = .ok (r, q)) : s.step (.edit e) = .ok ((s.setPool q).answer r) := by
  rw [step, ListEdit.apply, if_pos he, hq]
  rfl

theorem step_through_cutBefore {e : Cursor .forward n m} (hc : s.slots.get slot = some ⟨.forward, c⟩)
    (hq : c.cutBefore s.pool tail = .ok (q, e)) :
    s.step (.through slot (.cutBefore tail)) = .ok (((s.setPool q).put slot e).answer .done) := by
  rw [step, hc]
  simp only [stepThrough, hq]
  rfl

theorem step_appendAtSeam {e : Cursor .forward n m} (hlt : l ≠ tail)
    (hc : s.slots.get slot = some ⟨.forward, c⟩)
    (hq : Cursor.appendAtSeam s.pool l tail = (q, e)) :
    s.step (.appendAtSeam l tail (some slot)) = .ok (((s.setPool q).put slot e).answer .done) := by
  simp only [step, if_neg hlt, hc, hq]

end ListSession

/-- **Cuts and joins undo each other**, in every session with well-formed lists and for every two of
them: a list that is cut in front of or behind any of its nodes, or at a cursor that stands on one
or has finished, and joined again; and two lists that are joined and cut where they met.  Every link,
every end, every datum and every cursor is what it was, but that the list is empty that the cut went
to. -/
theorem cuts_and_joins_cancel {s : ListSession α n m k} {l t : Fin m} (h : s.pool.WellFormed)
    (hlt : l ≠ t) :
    (∀ x ∈ s.pool.members l,
      s.LeadsTo [.edit (.cutBefore l x t), .edit (.append l t)] (s.setPool (s.pool.clear t)) ∧
        s.LeadsTo [.edit (.cutThrough l x t), .edit (.append t l), .edit (.swap t l)]
          (s.setPool (s.pool.clear t))) ∧
      (∀ y, s.pool.first t = some y →
        s.LeadsTo [.edit (.append l t), .edit (.cutBefore l y t)] s) ∧
      ∀ slot c, s.slots.get slot = some ⟨.forward, c⟩ → c.list = l →
        (∀ x ∈ c.node, x ∈ s.pool.members l) →
          s.LeadsTo [.through slot (.cutBefore t), .appendAtSeam l t (some slot)]
            (s.setPool (s.pool.clear t)) := by
  have hsound : decide (l ≠ t) = true := decide_eq_true hlt
  have hsound' : decide (t ≠ l) = true := decide_eq_true hlt.symm
  refine ⟨fun x hx => ?_, fun y hy => ?_, fun slot c hc hlist hmem => ?_⟩
  · obtain ⟨u, v, hs, -⟩ := Row.exists_eq_append_cons hx
    constructor
    · obtain ⟨q, hq, -, hback⟩ := Pool.append_cutBefore h hlt hs
      have hjoin : (ListEdit.append l t).effect q = .ok (.done, s.pool.clear t) := by
        rw [ListEdit.effect, hback]
      refine .cons (ListSession.step_edit hsound (by rw [ListEdit.effect, hq]; rfl)) ?_
      exact .cons (ListSession.step_edit hsound hjoin) (.refl _)
    · obtain ⟨q, hq, hback⟩ := Pool.swap_append_cutThrough h hlt hs
      have hswap : (ListEdit.swap t l).effect (q.append t l) = .ok (.done, s.pool.clear t) := by
        rw [ListEdit.effect, hback]
      refine .cons (ListSession.step_edit hsound (by rw [ListEdit.effect, hq]; rfl)) ?_
      refine .cons (ListSession.step_edit hsound' rfl) ?_
      exact .cons (ListSession.step_edit hsound' hswap) (.refl _)
  · obtain ⟨v, hs⟩ : ∃ v, s.pool.members t = y :: v := by
      rw [h.first_eq] at hy
      exact List.head?_eq_some_iff.1 hy
    have hcut : (ListEdit.cutBefore l y t).effect (s.pool.append l t) = .ok (.done, s.pool) := by
      rw [ListEdit.effect, Pool.cutBefore_append h hlt hs]
      rfl
    refine .cons (ListSession.step_edit hsound rfl) ?_
    exact .cons (ListSession.step_edit hsound hcut) (.refl _)
  · subst hlist
    obtain ⟨q, hq, hback⟩ := Cursor.appendAtSeam_cutBefore h hlt hmem
    let tailCursor : Cursor .forward n m := ⟨t, c.node⟩
    have hjoin := ListSession.step_appendAtSeam (s := (s.setPool q).put slot tailCursor) hlt
      ListSession.slots_put_self hback
    -- the slot is given back the cursor that it held
    have hkeep : (((s.setPool q).put slot tailCursor).setPool (s.pool.clear t)).put slot c =
        s.setPool (s.pool.clear t) :=
      ListSession.put_put.trans (ListSession.put_of_get (s := s.setPool (s.pool.clear t)) hc)
    rw [hkeep] at hjoin
    exact .cons (ListSession.step_through_cutBefore hc hq) (.cons hjoin (.refl _))

/-- A list of three nodes, one of a single node, and a dropped node with links into both.  The first
is cut in front of its middle node, behind its last one, and at cursors in the middle and at the
end. -/
theorem cuts_and_joins_cancel_dropped_node :
    let pool : Pool Nat 5 2 :=
      ⟨#v[⟨⟨some 1, none⟩, 10⟩, ⟨⟨some 2, some 0⟩, 11⟩, ⟨⟨none, some 1⟩, 12⟩, ⟨⟨none, none⟩, 13⟩,
        ⟨⟨some 1, some 3⟩, 14⟩], #v[⟨some 0, some 2⟩, ⟨some 3, some 3⟩]⟩
    let s : ListSession Nat 5 2 2 := ⟨pool, #v[some ⟨.forward, 0, some 1⟩, some ⟨.forward, 0, none⟩]⟩
    (pool.WellFormed ∧ (0 : Fin 2) ≠ 1) ∧
      s.LeadsTo [.edit (.cutBefore 0 1 1), .edit (.append 0 1)] (s.setPool (pool.clear 1)) ∧
      s.LeadsTo [.edit (.cutThrough 0 2 1), .edit (.append 1 0), .edit (.swap 1 0)]
        (s.setPool (pool.clear 1)) ∧
      s.LeadsTo [.edit (.append 0 1), .edit (.cutBefore 0 3 1)] s ∧
      s.LeadsTo [.through 0 (.cutBefore 1), .appendAtSeam 0 1 (some 0)]
        (s.setPool (pool.clear 1)) ∧
      s.LeadsTo [.through 1 (.cutBefore 1), .appendAtSeam 0 1 (some 1)]
        (s.setPool (pool.clear 1)) := by
  intro pool s
  have hwf : s.pool.WellFormed := by decide
  obtain ⟨hcut, hjoin, hcursor⟩ := cuts_and_joins_cancel hwf (show (0 : Fin 2) ≠ 1 by decide)
  exact ⟨⟨hwf, by decide⟩, (hcut 1 (by decide)).1, (hcut 2 (by decide)).2, hjoin 3 rfl,
    hcursor 0 _ rfl rfl (by decide), hcursor 1 _ rfl rfl (by decide)⟩

end SpanChain
