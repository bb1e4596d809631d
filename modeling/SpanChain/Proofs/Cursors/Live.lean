/-
**Cursors that live while the lists change.**

A cursor is a list and a node, and nothing that is done to lists directly or through other cursors
writes to it.  What it comes to when it is advanced, though, it reads from the links of its node, so it
sees the list that its node is on now, wherever it stands there and whatever list the cursor is bound
to.  If its node was taken off, there are no links to follow; if its node has gone to another list
than its own, whatever needs the node on its own list stops at the check of membership.

Main definitions:

* `SpanChain.Row.beyond` — what is walked behind a node of a row;
* `SpanChain.ListSession.Step.target` — the slot that a step puts a cursor into;
* `SpanChain.ListSession.Yields` — what a cursor comes to when it is advanced.

Main results:

* `SpanChain.ListSession.get_step` — a step leaves all slots alone but one at most;
* `SpanChain.ListSession.yields_of_way` — a cursor comes to the nodes of the way along the links;
* `SpanChain.live_cursor_sees_lists` — **a cursor that is left alone in a run**.
-/

import SpanChain.Proofs.Cursors.Stale
import SpanChain.Proofs.Rows.Way

set_option relaxedAutoImplicit false
set_option autoImplicit false

namespace SpanChain

variable {α : Type} {n m k : Nat}

/-! ### What is walked behind a node -/

/-- The nodes behind a node in walking order. -/
def Row.beyond : Direction → Fin n → Row n → Row n
  | .forward, x, s => (back x s).tail
  | .backward, x, s => (front x s).reverse

/-- The way on from a member is what is walked behind it. -/
theorem Pool.Represents.way_beyond {p : Pool α n m} {s : Rows n m} {l : Fin m} {x : Fin n}
    (h : p.Represents s) (hx : x ∈ s l) (d : Direction) :
    p.Way d (p.follow d x) (Row.beyond d x (s l)) := by
  obtain ⟨u, v, hs, hu⟩ := Row.exists_eq_append_cons hx
  rw [hs]
  cases d with
  | forward =>
      rw [Row.beyond, Row.back_append_cons hu, List.tail_cons, follow_forward, h.next_eq hs]
      exact h.way_forward (hs.trans (List.append_cons u x v))
  | backward =>
      rw [Row.beyond, Row.front_append_cons hu, follow_backward, h.prev_eq hs]
      exact h.way_backward hs

namespace ListSession

variable {s : ListSession α n m k} {d : Direction} {slot i : Fin k} {c : Cursor d n m} {x : Fin n}
  {o : Outcome α n (ListSession α n m k)}

/-! ### Slots that a step leaves alone -/

/-- The slot that a step through the cursor in a slot puts a cursor into. -/
def CursorStep.target (slot : Fin k) : CursorStep n m k → Option (Fin k)
  | .advance | .remove | .insertAfter _ | .cutBefore _ | .cutAfter _ | .finish => some slot
  | .flip i | .copy i => some i
  | .insertBefore _ | .equals _ | .isBoundTo _ | .isActive | .node | .text => none

/-- The slot that a step puts a cursor into. -/
def Step.target : Step α n m k → Option (Fin k)
  | .start slot _ _ | .onNode slot _ _ _ | .tryOnNode slot _ _ _ | .appendAtSeam _ _ slot => slot
  | .through slot t => t.target slot
  | _ => none

theorem get_store {i : Option (Fin k)} (hi : i ≠ some slot) :
    (s.store i c).state.slots.get slot = s.slots.get slot := by
  cases i with
  | none => rfl
  | some i => exact slots_put_of_ne fun e => hi (congrArg some e.symm)

theorem get_stepThrough {t : CursorStep n m k} (ht : t.target i ≠ some slot)
    (ho : s.stepThrough i c t = .ok o) : o.state.slots.get slot = s.slots.get slot := by
  have hne : ∀ {j : Fin k}, some j ≠ some slot → slot ≠ j := fun h e => h (congrArg some e.symm)
  cases t with
  | advance =>
      obtain ⟨c', -, heq⟩ := bind_eq_ok.1 ho
      obtain rfl := Except.ok.inj heq
      exact slots_put_of_ne (hne ht)
  | remove =>
      obtain ⟨⟨x, q, c'⟩, -, heq⟩ := bind_eq_ok.1 ho
      obtain rfl := Except.ok.inj heq
      exact slots_put_of_ne (hne ht)
  | insertAfter x =>
      obtain ⟨⟨q, c'⟩, -, heq⟩ := bind_eq_ok.1 ho
      obtain rfl := Except.ok.inj heq
      exact slots_put_of_ne (hne ht)
  | insertBefore x =>
      obtain ⟨q, -, heq⟩ := bind_eq_ok.1 ho
      obtain rfl := Except.ok.inj heq
      rfl
  | cutBefore tail =>
      obtain ⟨⟨q, c'⟩, -, heq⟩ := bind_eq_ok.1 ho
      obtain rfl := Except.ok.inj heq
      exact slots_put_of_ne (hne ht)
  | cutAfter tail =>
      obtain ⟨⟨q, c'⟩, -, heq⟩ := bind_eq_ok.1 ho
      obtain rfl := Except.ok.inj heq
      exact slots_put_of_ne (hne ht)
  | finish =>
      obtain rfl := Except.ok.inj ho
      exact slots_put_of_ne (hne ht)
  | flip j =>
      obtain rfl := Except.ok.inj ho
      exact slots_put_of_ne (hne ht)
  | copy j =>
      obtain rfl := Except.ok.inj ho
      exact slots_put_of_ne (hne ht)
  | _ =>
      obtain rfl := Except.ok.inj ho
      rfl

/-- **A step leaves the slots alone that it does not put a cursor into.** -/
theorem get_step {t : Step α n m k} (ht : t.target ≠ some slot) (ho : s.step t = .ok o) :
    o.state.slots.get slot = s.slots.get slot := by
  cases t with
  | edit e =>
      obtain ⟨r, -, rfl⟩ := map_eq_ok.1 ho
      rfl
  | pushRange l start stop =>
      obtain ⟨r, -, rfl⟩ := map_eq_ok.1 ho
      rfl
  | start i d l =>
      obtain rfl := Except.ok.inj ho
      exact get_store ht
  | onNode i d l x =>
      obtain ⟨c, -, heq⟩ := bind_eq_ok.1 ho
      obtain rfl := Except.ok.inj heq
      exact get_store ht
  | tryOnNode i d l x =>
      simp only [step] at ho
      split at ho
      · obtain rfl := Except.ok.inj ho
        exact get_store ht
      · obtain rfl := Except.ok.inj ho
        rfl
  | through i t =>
      simp only [step] at ho
      split at ho
      · exact get_stepThrough ht ho
      · obtain rfl := Except.ok.inj ho
        rfl
  | appendAtSeam l tail i =>
      simp only [step] at ho
      split at ho
      · obtain rfl := Except.ok.inj ho
        rfl
      · split at ho
        · obtain rfl := Except.ok.inj ho
          rfl
        · next i =>
            split at ho
            · obtain rfl := Except.ok.inj ho
              exact slots_put_of_ne fun e => ht (congrArg some e.symm)
            · obtain rfl := Except.ok.inj ho
              rfl
  | _ =>
      obtain rfl := Except.ok.inj ho
      rfl

/-! ### What a cursor comes to -/

/-- The cursor, advanced again and again, comes to the nodes of the row one after the other, each of
them once, and finishes behind the last one.  Nothing changes but the cursor. -/
def Yields (s : ListSession α n m k) (slot : Fin k) (c : Cursor d n m) (v : Row n) : Prop :=
  Session.run step s (List.replicate (v.length + 1) (.through slot .advance)) =
    ((v.map some ++ [none]).map fun a => (s.put slot (⟨c.list, a⟩ : Cursor d n m)).answer .done,
      .ok (s.put slot c.finish))

theorem step_advance (hc : s.slots.get slot = some ⟨d, c⟩) (hx : c.node = some x) :
    s.step (.through slot .advance) =
      .ok ((s.put slot (⟨c.list, s.pool.follow d x⟩ : Cursor d n m)).answer .done) := by
  simp only [step, hc, stepThrough, Cursor.advance, hx]
  rfl

/-- **A cursor comes to the nodes of the way along the links from its own.** -/
theorem yields_of_way {v : Row n} (hc : s.slots.get slot = some ⟨d, c⟩) (hx : c.node = some x)
    (hway : s.pool.Way d (s.pool.follow d x) v) : s.Yields slot c v := by
  induction v generalizing s c x with
  | nil =>
      have hstep := step_advance hc hx
      rw [show s.pool.follow d x = none from hway] at hstep
      exact Session.run_cons_of_run step hstep rfl
  | cons y v ih =>
      obtain ⟨hy, hrest⟩ := hway
      have hstep := step_advance hc hx
      rw [hy] at hstep
      have hrun := ih (s := s.put slot (⟨c.list, some y⟩ : Cursor d n m)) slots_put_self rfl hrest
      rw [Yields] at hrun
      simp only [put_put] at hrun
      exact Session.run_cons_of_run step hstep hrun

/-- The steps through a cursor that need its node to be on its list `l`. -/
def CursorStep.NeedsMember (l : Fin m) : CursorStep n m k → Prop
  | .remove | .insertAfter _ | .insertBefore _ => True
  | .cutBefore tail => l ≠ tail
  | _ => False

/-- **What needs the node of a cursor on its list stops at the check of membership**, if it is not
there. -/
theorem step_of_notMem (h : s.pool.WellFormed) (hc : s.slots.get slot = some ⟨d, c⟩)
    (hx : c.node = some x) (hout : x ∉ s.pool.members c.list) {t : CursorStep n m k}
    (ht : t.NeedsMember c.list) : s.step (.through slot t) = .error .notMember := by
  have hcheck := Pool.Represents.checkMember_of_notMem h hout
  simp only [step, hc]
  cases t with
  | remove =>
      simp only [stepThrough, Cursor.remove, hx, Pool.remove, hcheck]
      rfl
  | insertAfter y =>
      cases d with
      | forward =>
          simp only [stepThrough, Cursor.insertAfter, hx, Pool.insertBeyond_forward,
            Pool.insertAfter, Pool.checkAnchor, hcheck]
          rfl
      | backward =>
          simp only [stepThrough, Cursor.insertAfter, hx, Pool.insertBeyond_backward,
            Pool.insertBefore, Pool.checkAnchor, hcheck]
          rfl
  | insertBefore y =>
      cases d with
      | forward =>
          simp only [stepThrough, Cursor.insertBefore, hx, Pool.insertAhead_forward,
            Pool.insertBefore, Pool.checkAnchor, hcheck]
          rfl
      | backward =>
          simp only [stepThrough, Cursor.insertBefore, hx, Pool.insertAhead_backward,
            Pool.insertAfter, Pool.checkAnchor, hcheck]
          rfl
  | cutBefore tail =>
      have htail : c.list ≠ tail := ht
      cases d with
      | forward =>
          simp only [stepThrough, Cursor.cutBefore, Cursor.cutInto, if_neg htail, hx,
            Pool.cutFrom_forward, Pool.cutBefore, hcheck]
          rfl
      | backward =>
          simp only [stepThrough, Cursor.cutBefore, Cursor.cutInto, if_neg htail, hx,
            Pool.cutFrom_backward, Pool.cutThrough, hcheck]
          rfl
  | _ => exact ht.elim

/-- What the step puts in is on no list, and it does not write to the cursor in a slot. -/
def LeavesAlone (slot : Fin k) (s : ListSession α n m k) (t : Step α n m k) : Prop :=
  s.Tame t ∧ t.target ≠ some slot

instance (slot : Fin k) (s : ListSession α n m k) : DecidablePred (LeavesAlone slot s) := fun t =>
  inferInstanceAs (Decidable (s.Tame t ∧ t.target ≠ some slot))

end ListSession

open ListSession (LeavesAlone)

/-- **A cursor that is left alone sees the lists as they are now.**  In a run of a session with
well-formed lists, steps are taken on lists and through other cursors; what is put in is on no list
then.  The cursor is still bound to its list and stands on its node, which was on any list.

* If no step takes this node off or drops its list, it is on a list at the end.
* From whichever list the node is on, the cursor comes to the nodes behind it, each of them once; and
  if this is another list than its own, all that needs the node on its own list fails.
* If the node was taken off and not put in again, the cursor finishes when it is advanced once. -/
theorem live_cursor_sees_lists {s s' : ListSession α n m k} {slot : Fin k} {d : Direction}
    {c : Cursor d n m} {x : Fin n} {steps : List (ListSession.Step α n m k)}
    (h : s.pool.WellFormed) (hc : s.slots.get slot = some ⟨d, c⟩) (hx : c.node = some x)
    (hlisted : ∃ l, x ∈ s.pool.members l)
    (hrules : Session.KeepsTo ListSession.step (LeavesAlone slot) s steps)
    (hrun : (Session.run ListSession.step s steps).2 = .ok s') :
    s'.pool.WellFormed ∧ s'.slots.get slot = some ⟨d, c⟩ ∧
      (Session.KeepsTo ListSession.step (fun s t => x ∉ (s.turnover t).gone) s steps →
        ∃ l, x ∈ s'.pool.members l) ∧
      (∀ l, x ∈ s'.pool.members l →
        s'.Yields slot c (Row.beyond d x (s'.pool.members l)) ∧
          (l ≠ c.list → ∀ t : ListSession.CursorStep n m k, t.NeedsMember c.list →
            s'.step (.through slot t) = .error .notMember)) ∧
      (Session.Since ListSession.step (fun s t => s.turnover t = .remove x)
          (fun s t => x ∉ (s.turnover t).come) s steps →
        s'.Yields slot c []) := by
  let inv : ListSession α n m k → Prop := fun s =>
    s.pool.WellFormed ∧ s.slots.get slot = some ⟨d, c⟩
  have hinv : ∀ s t o, inv s → LeavesAlone slot s t → s.step t = .ok o → inv o.state :=
    fun s t o hs ht ho =>
      ⟨(ListSession.reaches_step ht.1 ho).changes.wellFormed hs.1,
        (ListSession.get_step ht.2 ho).trans hs.2⟩
  obtain ⟨hwf, hslot⟩ := (Session.run_invariant hinv ⟨h, hc⟩ hrules).2 s' hrun
  refine ⟨hwf, hslot, fun hspared => ?_, fun l hl => ⟨?_, fun hne t ht => ?_⟩, fun hremoved => ?_⟩
  · have hstays : ∀ s t o, inv s ∧ ¬ Rows.Unlisted s.pool.members x →
        LeavesAlone slot s t ∧ x ∉ (s.turnover t).gone → s.step t = .ok o →
          inv o.state ∧ ¬ Rows.Unlisted o.state.pool.members x := fun s t o hs ht ho =>
      ⟨hinv s t o hs.1 ht.1 ho,
        ((ListSession.reaches_step ht.1.1 ho).turns hs.1.1).listed hs.2 ht.2⟩
    have hstart : ¬ Rows.Unlisted s.pool.members x := fun hout => hlisted.elim fun l => hout l
    have hfinal :=
      ((Session.run_invariant hstays ⟨⟨h, hc⟩, hstart⟩ (hrules.and hspared)).2 s' hrun).2
    simpa only [Rows.Unlisted, not_forall, not_not] using hfinal
  · exact ListSession.yields_of_way hslot hx (hwf.way_beyond hl d)
  · refine ListSession.step_of_notMem hwf hslot hx (fun hxc => hne ?_) ht
    exact hwf.apart.same_row hl hxc
  · let after : ListSession α n m k → Prop := fun s => s.pool.Loose x
    have hevent : ∀ s t o, inv s → LeavesAlone slot s t → s.turnover t = .remove x →
        s.step t = .ok o → after o.state := by
      intro s t o hs ht hgone ho
      have hturns := (ListSession.reaches_step ht.1 ho).turns hs.1
      rw [hgone] at hturns
      exact hturns.loose_of_remove hs.1
    have hlater : ∀ s t o, inv s → after s → LeavesAlone slot s t → x ∉ (s.turnover t).come →
        s.step t = .ok o → after o.state := fun s t o hs hloose ht hcome ho =>
      ((ListSession.reaches_step ht.1 ho).turns hs.1).loose hloose hcome
    have hloose : s'.pool.Loose x :=
      Session.run_since hinv hevent hlater ⟨h, hc⟩ hrules hremoved hrun
    refine ListSession.yields_of_way hslot hx ?_
    cases d with
    | forward => exact hloose.next
    | backward => exact hloose.prev

/-- The list of the cursor is cut in front of its node through another cursor, and the tail is appended
to a third list, where it gets another node behind it; then the node of the cursor is taken off. -/
theorem live_cursor_sees_lists_moved_node :
    let s : ListSession Nat 6 3 2 :=
      ⟨⟨#v[⟨⟨some 1, none⟩, 10⟩, ⟨⟨some 2, some 0⟩, 11⟩, ⟨⟨some 3, some 1⟩, 12⟩,
          ⟨⟨none, some 2⟩, 13⟩, ⟨⟨none, none⟩, 14⟩, ⟨⟨some 2, none⟩, 15⟩],
          #v[⟨some 0, some 3⟩, ⟨some 4, some 4⟩, ⟨none, none⟩]⟩,
        #v[some ⟨.forward, 0, some 1⟩, some ⟨.forward, 0, some 0⟩]⟩
    let moves : List (ListSession.Step Nat 6 3 2) :=
      [.through 1 (.cutAfter 1), .edit (.append 2 1), .edit (.pushBack 2 5)]
    let moved : ListSession Nat 6 3 2 :=
      ⟨⟨#v[⟨⟨none, none⟩, 10⟩, ⟨⟨some 2, none⟩, 11⟩, ⟨⟨some 3, some 1⟩, 12⟩,
          ⟨⟨some 5, some 2⟩, 13⟩, ⟨⟨none, none⟩, 14⟩, ⟨⟨none, some 3⟩, 15⟩],
          #v[⟨some 0, some 0⟩, ⟨none, none⟩, ⟨some 1, some 5⟩]⟩,
        #v[some ⟨.forward, 0, some 1⟩, some ⟨.forward, 1, some 1⟩]⟩
    let c : Cursor .forward 6 3 := ⟨0, some 1⟩
    s.pool.WellFormed ∧
      (Session.run ListSession.step s moves).2 = .ok moved ∧
      moved.Yields 0 c [2, 3, 5] ∧
      (∀ t : ListSession.CursorStep 6 3 2, t.NeedsMember 0 →
        moved.step (.through 0 t) = .error .notMember) ∧
      ∃ s', (Session.run ListSession.step s (moves ++ [.edit (.remove 2 1)])).2 = .ok s' ∧
        s'.Yields 0 c [] := by
  intro s moves moved c
  have hwf : s.pool.WellFormed := by decide
  have hlisted : ∃ l, (1 : Fin 6) ∈ s.pool.members l := ⟨0, by decide⟩
  have hmoved : (Session.run ListSession.step s moves).2 = .ok moved := rfl
  have hok : (Session.run ListSession.step s (moves ++ [.edit (.remove 2 1)])).2.isOk = true := by
    decide +kernel
  have hslot : s.slots.get 0 = some ⟨.forward, c⟩ := rfl
  obtain ⟨outcomes, s', hrun⟩ := Session.exists_run_of_isOk hok
  obtain ⟨-, -, -, hsees, -⟩ :=
    live_cursor_sees_lists hwf hslot rfl hlisted (by decide +kernel) hmoved
  obtain ⟨-, -, -, -, hremoved⟩ :=
    live_cursor_sees_lists hwf hslot rfl hlisted (by decide +kernel) (congrArg Prod.snd hrun)
  obtain ⟨hyields, hrefuses⟩ := hsees 2 (by decide)
  exact ⟨hwf, hmoved, hyields, hrefuses (by decide), s', congrArg Prod.snd hrun,
    hremoved (by decide +kernel)⟩

end SpanChain
