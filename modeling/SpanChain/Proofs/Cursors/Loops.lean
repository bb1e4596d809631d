/-
**Every loop along the links ends.**

A loop that advances a cursor looks at the node that it has come to, and then leaves, fails or goes
on to the next node.  It changes no links, so its node steps are at most as many as the way from its
cursor has nodes; and no way runs in a circle, however often lists were cut, joined, emptied and
built anew from nodes with links left over.  So the bounds on the walks of byte cursors are never
what ends them.

Main definitions:

* `SpanChain.Cursor.Loops` — what comes of a loop, and after how many node steps;
* `SpanChain.ByteCursor.skipping`, `SpanChain.ByteCursor.summing`, `SpanChain.ByteCursor.advancing`
  — the loops of a byte cursor;
* `SpanChain.Pool.WalksEnd` — all ways end, and all loops do.

Main results:

* `SpanChain.Cursor.Loops.unique` — a loop ends in one way only;
* `SpanChain.Pool.Open.walksEnd` — in a pool without circles all loops end;
* `SpanChain.walks_end_in_sessions` — **so they do at every moment of a session**.
-/

import SpanChain.Proofs.Bytes.Motion
import SpanChain.Proofs.Cursors.Stale
import SpanChain.Proofs.Rows.Open

set_option relaxedAutoImplicit false
set_option autoImplicit false

namespace SpanChain

variable {α σ β : Type} {n m j k : Nat}

/-! ### Loops -/

namespace Cursor

variable {d : Direction} {p : Pool α n m} {body : σ → Cursor d n m → Except Fault (β ⊕ σ)} {s : σ}
  {c : Cursor d n m} {x : Fin n} {w : Row n} {r r' : Except Fault β} {i i' : Nat}

theorem advance_of_some (hx : c.node = some x) :
    c.advance p = .ok ⟨c.list, p.follow d x⟩ := by
  simp only [advance, hx]

theorem advance_of_none (hx : c.node = none) : c.advance p = .error .finishedCursor := by
  simp only [advance, hx]

/-- A loop with the given body ends after `i` node steps, with a result or a fault.  The body sees
the cursor and what the loop has in hand; it leaves with a result, fails, or has the cursor advanced
and the loop go on with something else in hand. -/
inductive Loops (p : Pool α n m) (body : σ → Cursor d n m → Except Fault (β ⊕ σ)) :
    σ → Cursor d n m → Nat → Except Fault β → Prop where
  | leave {s c b} (h : body s c = .ok (.inl b)) : Loops p body s c 0 (.ok b)
  | fail {s c e} (h : body s c = .error e) : Loops p body s c 0 (.error e)
  | stuck {s c s' e} (h : body s c = .ok (.inr s')) (hc : c.advance p = .error e) :
      Loops p body s c 0 (.error e)
  | move {s c s' c' i r} (h : body s c = .ok (.inr s')) (hc : c.advance p = .ok c')
      (hrest : Loops p body s' c' i r) : Loops p body s c (i + 1) r

/-- A loop ends in one way only. -/
theorem Loops.unique (h : Loops p body s c i r) (h' : Loops p body s c i' r') :
    i = i' ∧ r = r' := by
  induction h generalizing i' r' with
  | leave h => cases h' <;> simp_all
  | fail h => cases h' <;> simp_all
  | stuck h hc => cases h' <;> simp_all
  | move h hc _ ih =>
      cases h' with
      | leave h₂ => simp_all
      | fail h₂ => simp_all
      | stuck h₂ hc₂ => simp_all
      | move h₂ hc₂ hrest₂ =>
          obtain rfl := Sum.inr.inj (Except.ok.inj (h.symm.trans h₂))
          obtain rfl := Except.ok.inj (hc.symm.trans hc₂)
          obtain ⟨rfl, rfl⟩ := ih hrest₂
          exact ⟨rfl, rfl⟩

/-- The loop ends after at most as many node steps as there are nodes. -/
def LoopEnds (p : Pool α n m) (body : σ → Cursor d n m → Except Fault (β ⊕ σ)) (s : σ)
    (c : Cursor d n m) (r : Except Fault β) : Prop :=
  ∃ i ≤ n, Loops p body s c i r

/-- Along a way that ends every loop ends. -/
theorem exists_loops (hw : p.Way d c.node w)
    (body : σ → Cursor d n m → Except Fault (β ⊕ σ)) (s : σ) :
    ∃ i ≤ w.length, ∃ r, Loops p body s c i r := by
  induction w generalizing s c with
  | nil =>
      cases hb : body s c with
      | error e => exact ⟨0, le_rfl, _, .fail hb⟩
      | ok out =>
          cases out with
          | inl b => exact ⟨0, le_rfl, _, .leave hb⟩
          | inr s' => exact ⟨0, le_rfl, _, .stuck hb (advance_of_none hw)⟩
  | cons x w ih =>
      cases hb : body s c with
      | error e => exact ⟨0, Nat.zero_le _, _, .fail hb⟩
      | ok out =>
          cases out with
          | inl b => exact ⟨0, Nat.zero_le _, _, .leave hb⟩
          | inr s' =>
              obtain ⟨i, hi, r, hr⟩ := ih (c := ⟨c.list, p.follow d x⟩) hw.2 s'
              exact ⟨i + 1, Nat.succ_le_succ hi, r, .move hb (advance_of_some hw.1) hr⟩

end Cursor

/-! ### The loops of a byte cursor -/

namespace ByteCursor

open Cursor (Loops LoopEnds)

variable {p : Pool Span n m} {c : ByteCursor n m} {l : Fin m} {a : Option (Fin n)} {x : Fin n}
  {w : Row n}

/-- Stepping over empty spans: the loop leaves on a node with bytes, or at the end. -/
def skipping (p : Pool Span n m) (_ : Unit) (c : Cursor .forward n m) :
    Except Fault (Cursor .forward n m ⊕ Unit) :=
  match c.node with
  | none => .ok (.inl c)
  | some x => if p.len x = 0 then .ok (.inr ()) else .ok (.inl c)

/-- Summing up lengths: the loop leaves at the end. -/
def summing (p : Pool Span n m) (total : Nat) (c : Cursor .forward n m) :
    Except Fault (Nat ⊕ Nat) :=
  match c.node with
  | none => .ok (.inl total)
  | some x => .inr <$> addSize total (p.len x)

/-- Moving by a number of bytes: the loop has in hand the offset, how many bytes are left to go and
whether it has just left a span, so that empty spans are to be stepped over. -/
def advancing (p : Pool Span n m) :
    Nat × Nat × Bool → Cursor .forward n m →
      Except Fault ((ByteCursor n m × Nat) ⊕ (Nat × Nat × Bool))
  | (offset, left, arriving), c =>
    match c.node with
    | none => .ok (.inl (⟨c, offset⟩, left))
    | some x =>
      if arriving = true ∧ p.len x = 0 then .ok (.inr (offset, left, true))
      else if left = 0 then .ok (.inl (⟨c, offset⟩, 0))
      else if p.len x < offset then .error .subOverflow
      else if offset + left < p.len x then .ok (.inl (⟨c, offset + left⟩, 0))
      else .ok (.inr (0, left - (p.len x - offset), true))

theorem loops_skipping (hw : p.Way .forward a w) :
    ∃ i ≤ w.length, Loops p (skipping p) () ⟨l, a⟩ i (.ok ⟨l, p.skipEmpty a⟩) := by
  rw [hw.skipEmpty_eq]
  induction w generalizing a with
  | nil =>
      obtain rfl := hw
      exact ⟨0, le_rfl, .leave rfl⟩
  | cons x w ih =>
      obtain ⟨rfl, hway⟩ := hw
      by_cases hx : p.len x = 0
      · obtain ⟨i, hi, hloop⟩ := ih hway
        rw [Pool.skipped_cons_of_zero hx]
        exact ⟨i + 1, Nat.succ_le_succ hi, .move (if_pos hx) rfl hloop⟩
      · rw [Pool.skipped_cons_of_pos (Nat.pos_of_ne_zero hx)]
        exact ⟨0, Nat.zero_le _, .leave (if_neg hx)⟩

theorem loops_summing (hw : p.Way .forward a w) {j : Nat} (hj : w.length ≤ j) (total : Nat) :
    ∃ i ≤ w.length, Loops p (summing p) total ⟨l, a⟩ i (p.sumLengths j a total) := by
  induction w generalizing a j total with
  | nil =>
      obtain rfl := hw
      refine ⟨0, le_rfl, ?_⟩
      cases j <;> exact .leave rfl
  | cons x w ih =>
      obtain ⟨rfl, hway⟩ := hw
      cases j with
      | zero => simp at hj
      | succ j =>
          rw [Pool.sumLengths]
          cases hsum : addSize total (p.len x) with
          | error e =>
              refine ⟨0, Nat.zero_le _, .fail ?_⟩
              simp only [summing, hsum]
              rfl
          | ok total' =>
              obtain ⟨i, hi, hloop⟩ := ih hway (by simpa using hj) total'
              refine ⟨i + 1, Nat.succ_le_succ hi, .move ?_ rfl hloop⟩
              simp only [summing, hsum]
              rfl

/-- At a node that is not stepped over, the loop does what the definition says. -/
theorem loops_advancing_at {j offset left : Nat} {arriving : Bool}
    (hx : ¬ (arriving = true ∧ p.len x = 0))
    (hrest : ∀ left, ∃ i ≤ j, Loops p (advancing p) (0, left, true) ⟨l, p.next x⟩ i
      ((arrive p l (p.next x)).advanceLeft p left)) :
    ∃ i ≤ j + 1, Loops p (advancing p) (offset, left, arriving) ⟨l, some x⟩ i
      (advanceLeft p ⟨⟨l, some x⟩, offset⟩ left) := by
  have hbody : advancing p (offset, left, arriving) ⟨l, some x⟩ =
      if left = 0 then .ok (.inl (⟨⟨l, some x⟩, offset⟩, 0))
      else if p.len x < offset then .error .subOverflow
      else if offset + left < p.len x then .ok (.inl (⟨⟨l, some x⟩, offset + left⟩, 0))
      else .ok (.inr (0, left - (p.len x - offset), true)) := if_neg hx
  by_cases h0 : left = 0
  · subst h0
    rw [if_pos rfl] at hbody
    refine ⟨0, Nat.zero_le _, ?_⟩
    rw [advanceLeft, if_pos rfl]
    exact .leave hbody
  · have hdef := advanceLeft_of_some (p := p) (c := ⟨⟨l, some x⟩, offset⟩) rfl h0
    rw [if_neg h0] at hbody
    by_cases hspent : p.len x < offset
    · rw [if_pos hspent] at hbody hdef
      rw [hdef]
      exact ⟨0, Nat.zero_le _, .fail hbody⟩
    · rw [if_neg hspent] at hbody hdef
      by_cases hlt : offset + left < p.len x
      · rw [if_pos hlt] at hbody hdef
        rw [hdef]
        exact ⟨0, Nat.zero_le _, .leave hbody⟩
      · rw [if_neg hlt] at hbody hdef
        rw [hdef]
        obtain ⟨i, hi, hloop⟩ := hrest (left - (p.len x - offset))
        exact ⟨i + 1, Nat.succ_le_succ hi, .move hbody rfl hloop⟩

/-- The empty spans that a cursor steps over when it arrives are steps of the same loop. -/
theorem loops_advancing_arriving (hw : p.Way .forward a w) (left : Nat) :
    ∃ i ≤ w.length, Loops p (advancing p) (0, left, true) ⟨l, a⟩ i
      ((arrive p l a).advanceLeft p left) := by
  induction w generalizing a left with
  | nil =>
      obtain rfl := hw
      have hnone : (arrive p l none).node = none := Pool.skipEmpty_none p
      have harrive : arrive p l none = ⟨⟨l, none⟩, 0⟩ :=
        congrArg (fun y => (⟨⟨l, y⟩, 0⟩ : ByteCursor n m)) hnone
      rw [advanceLeft_of_none hnone, harrive]
      exact ⟨0, le_rfl, .leave rfl⟩
  | cons x w ih =>
      have hskip := Pool.Way.skipEmpty_eq hw
      obtain ⟨rfl, hway⟩ := hw
      by_cases hx : p.len x = 0
      · have harrive : arrive p l (some x) = arrive p l (p.next x) := by
          rw [Pool.skipped_cons_of_zero hx, ← Pool.Way.skipEmpty_eq hway] at hskip
          exact congrArg (fun y => (⟨⟨l, y⟩, 0⟩ : ByteCursor n m)) hskip
        obtain ⟨i, hi, hloop⟩ := ih hway left
        rw [harrive]
        exact ⟨i + 1, Nat.succ_le_succ hi, .move (if_pos ⟨rfl, hx⟩) rfl hloop⟩
      · have harrive : arrive p l (some x) = ⟨⟨l, some x⟩, 0⟩ := by
          rw [Pool.skipped_cons_of_pos (Nat.pos_of_ne_zero hx)] at hskip
          exact congrArg (fun y => (⟨⟨l, y⟩, 0⟩ : ByteCursor n m)) hskip
        rw [harrive]
        exact loops_advancing_at (fun h => hx h.2) (ih hway)

theorem loops_advancing (hw : p.Way .forward c.node w) (left : Nat) :
    ∃ i ≤ w.length, Loops p (advancing p) (c.offset, left, false) c.place i
      (c.advanceLeft p left) := by
  obtain ⟨⟨l, a⟩, offset⟩ := c
  cases w with
  | nil =>
      obtain rfl : a = none := hw
      rw [advanceLeft_of_none rfl]
      exact ⟨0, le_rfl, .leave rfl⟩
  | cons x w =>
      obtain ⟨rfl, hway⟩ : a = some x ∧ p.Way .forward (p.next x) w := hw
      exact loops_advancing_at (fun h => Bool.false_ne_true h.1) (loops_advancing_arriving hway)

end ByteCursor

/-! ### Pools without circles -/

namespace Pool

open Cursor (LoopEnds)
open ByteCursor (skipping summing advancing)

/-- All ways along the links end, and so do all loops that advance a cursor. -/
structure WalksEnd (p : Pool Span n m) : Prop where
  /-- From every node, on a list or not, the links lead to an end in both directions, and to no node
  twice on the way. -/
  ways : ∀ d x, ∃ w, p.Way d (some x) w ∧ w.Nodup
  /-- Every loop that advances a cursor ends after at most as many node steps as there are nodes,
  whatever it does at each node and wherever the cursor stands. -/
  loops : ∀ {d : Direction} {σ β : Type} (body : σ → Cursor d n m → Except Fault (β ⊕ σ)) (s : σ)
    (c : Cursor d n m), ∃ r, LoopEnds p body s c r
  /-- Stepping over empty spans is such a loop. -/
  skipEmpty : ∀ c : Cursor .forward n m,
    LoopEnds p (skipping p) () c (.ok ⟨c.list, p.skipEmpty c.node⟩)
  /-- So is the count of the bytes that are left. -/
  remaining : ∀ c : ByteCursor n m, ∃ r,
    LoopEnds p (summing p) 0 c.place r ∧ c.remaining p = (fun total => total - c.offset) <$> r
  /-- So is moving by a number of bytes. -/
  advance : ∀ (c : ByteCursor n m) (count : Nat), ∃ r,
    LoopEnds p (advancing p) (c.offset, count, false) c.place r ∧
      c.advance p count = (fun (c', left) => (c', count - left)) <$> r

/-- **Where all ways end, all loops end.** -/
theorem Open.walksEnd {p : Pool Span n m} (h : p.Open) : p.WalksEnd := by
  refine ⟨fun d x => ?_, fun {d} _ _ body s c => ?_, fun c => ?_, fun c => ?_, fun c count => ?_⟩
  · obtain ⟨w, hw⟩ := h d x
    exact ⟨w, hw, hw.nodup⟩
  · obtain ⟨w, hw⟩ := h.exists_way d c.node
    obtain ⟨i, hi, r, hr⟩ := Cursor.exists_loops hw body s
    exact ⟨r, i, hi.trans hw.length_le, hr⟩
  · obtain ⟨w, hw⟩ := h.exists_way .forward c.node
    obtain ⟨i, hi, hr⟩ := ByteCursor.loops_skipping hw
    exact ⟨i, hi.trans hw.length_le, hr⟩
  · obtain ⟨w, hw⟩ := h.exists_way .forward c.node
    obtain ⟨i, hi, hr⟩ := ByteCursor.loops_summing hw hw.length_le 0
    exact ⟨_, ⟨i, hi.trans hw.length_le, hr⟩, rfl⟩
  · obtain ⟨w, hw⟩ := h.exists_way .forward c.node
    obtain ⟨i, hi, hr⟩ := ByteCursor.loops_advancing hw count
    exact ⟨_, ⟨i, hi.trans hw.length_le, hr⟩, rfl⟩

/-- There are no links and no list has a node. -/
def Blank (p : Pool α n m) : Prop :=
  (∀ x, p.next x = none ∧ p.prev x = none) ∧ ∀ l, p.first l = none ∧ p.last l = none

/-- So it is in a pool that was just made. -/
theorem blank_ofData (data : Vector α n) (m : Nat) : (ofData data m).Blank := by
  refine ⟨fun x => ⟨?_, ?_⟩, fun l => ⟨?_, ?_⟩⟩
  · simp [ofData, next]
  · simp [ofData, prev]
  · simp [ofData, first, ends]
  · simp [ofData, last, ends]

end Pool

/-! ### Sessions -/

/-- **At every moment of a session all ways end, and all loops that advance a cursor do.**  The
session begins with unlinked nodes and empty lists, and with any cursors; nodes that are put in are
on no list then, but may have links left over from lists that were emptied or overwritten. -/
theorem walks_end_in_sessions {w : Workbench n m j k} {steps : List (Workbench.Step n m j k)}
    (h : w.pool.Blank) (hrules : Session.KeepsTo Workbench.step Workbench.Tame w steps) :
    (∀ o ∈ (Session.run Workbench.step w steps).1, o.state.pool.WalksEnd) ∧
      ∀ final, (Session.run Workbench.step w steps).2 = .ok final → final.pool.WalksEnd := by
  have hstart : w.pool.WellFormed ∧ w.pool.Open :=
    ⟨(Pool.represents_of_empty h.2).wellFormed, Pool.open_of_unlinked h.1⟩
  have hstep : ∀ (w : Workbench n m j k) (t : Workbench.Step n m j k)
      (o : Outcome Span n (Workbench n m j k)), w.pool.WellFormed ∧ w.pool.Open → w.Tame t →
      w.step t = .ok o → o.state.pool.WellFormed ∧ o.state.pool.Open := by
    intro w t o hw ht ho
    exact hw.2.of_changes hw.1 (Workbench.changes_step hw.1 ht ho)
  obtain ⟨hall, hfinal⟩ := Session.run_invariant hstep hstart hrules
  exact ⟨fun o ho => (hall o ho).2.walksEnd, fun final hf => (hfinal final hf).2.walksEnd⟩

/-- A list of four nodes is emptied, and two of its nodes come to other lists in another order while
the dropped links of the others still lead to them. -/
theorem walks_end_in_sessions_dropped_chain :
    let pool : Pool Span 5 3 :=
      .ofData #v[⟨.inMemory 0, 3, by decide⟩, .empty, ⟨.inMemory 3, 4, by decide⟩, .empty,
        ⟨.inMemory 7, 1, by decide⟩] 3
    let w : Workbench 5 3 1 1 :=
      ⟨pool, .pattern 12 0 1, #v[some ⟨.backward, 1, some 3⟩], #v[some ⟨⟨0, some 2⟩, 9⟩]⟩
    let steps : List (Workbench.Step 5 3 1 1) :=
      [.inl (.edit (.pushBack 0 0)), .inl (.edit (.pushBack 0 1)), .inl (.edit (.pushBack 0 2)),
        .inl (.edit (.pushBack 0 3)), .inr (.start (some 0) 0), .inl (.edit (.clear 0)),
        .inl (.edit (.pushFront 1 3)), .inl (.edit (.pushBack 1 1)),
        .inl (.through 0 (.insertAfter 4)), .inr (.through 0 (.advance 3)),
        .inl (.edit (.pushFront 2 2)), .inr (.appendAtSeam 1 2 (some 0)),
        .inr (.through 0 (.advance 1)), .inr (.through 0 (.splitAt 0 (some 0)))]
    pool.Blank ∧
      (∀ o ∈ (Session.run Workbench.step w steps).1, o.state.pool.WalksEnd) ∧
        ∀ final, (Session.run Workbench.step w steps).2 = .ok final → final.pool.WalksEnd :=
  ⟨Pool.blank_ofData _ 3, walks_end_in_sessions (Pool.blank_ofData _ 3) (by decide +kernel)⟩

end SpanChain
