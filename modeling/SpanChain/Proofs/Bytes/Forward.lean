/-
**Steps forward add up.**

A step forward comes as far as it was meant to, or to the end, and tells how far it has come.  So
steps that follow one another come to where a single step by their sum comes, and tell the same number
of bytes between them, whether or not the end is reached on the way.

Main definitions:

* `SpanChain.BufferSession.forward` — steps forward through one slot.

Main results:

* `SpanChain.ByteCursor.Moves.eq_finish_iff` — a cursor has finished exactly if it was to pass all
  bytes that were ahead;
* `SpanChain.BufferSession.step_advance` — a step forward in a session;
* `SpanChain.BufferSession.run_forward` — a run of steps forward;
* `SpanChain.steps_forward_add_up` — **steps forward are truncated addition**.

The number of bytes ahead of a cursor is the length of a list here, not a size: it may be beyond what
a size can tell.
-/

import SpanChain.Proofs.Bytes.Motion
import SpanChain.Session.Buffers

set_option relaxedAutoImplicit false
set_option autoImplicit false

namespace SpanChain

variable {n m k : Nat}

/-- **A cursor has finished exactly if it was to pass all bytes ahead.** -/
theorem ByteCursor.Moves.eq_finish_iff {p : Pool Span n m} {c c' : ByteCursor n m} {j : Nat}
    (hp : p.WellFormed) (h : c.Moves p j c') :
    c' = c.finish ↔ (c.ahead p).length ≤ j := by
  rw [← List.drop_eq_nil_iff, ← h.ahead, h.valid.ahead_eq_nil_iff hp]
  constructor
  · rintro rfl
    rfl
  · intro hx
    have hoff : c'.offset = 0 := h.valid.offset_eq_zero hx
    have hlist : c'.list = c.list := h.list
    obtain ⟨⟨l, a⟩, i⟩ := c'
    obtain rfl : a = none := hx
    obtain rfl : i = 0 := hoff
    obtain rfl : l = c.list := hlist
    rfl

/-! ### In a session -/

namespace BufferSession

variable {s : BufferSession n m k} {c : ByteCursor n m}

/-- Steps forward through one slot, by the given numbers of bytes. -/
def forward (slot : Fin k) (counts : List Nat) : List (Step n m k) :=
  counts.map fun count => .through slot (.advance count)

/-- A step forward changes nothing but the cursor, and tells the number of bytes passed. -/
theorem step_advance (h : s.pool.WellFormed) (slot : Fin k) (hc : c.Valid s.pool) (count : Nat) :
    ∃ c', (s.put slot c).step (.through slot (.advance count)) =
        .ok ((s.put slot c').answer (.size (min count (c.ahead s.pool).length))) ∧
      c.Moves s.pool count c' := by
  obtain ⟨c', hc', hm⟩ := c.advance_eq h hc count
  refine ⟨c', ?_, hm⟩
  simp only [step, slots_put_self, stepThrough, pool_put, hc', bind, Except.bind, pure, Except.pure,
    put_put]

/-- **Steps forward come as far as their sum**, and tell as many bytes between them. -/
theorem run_forward (h : s.pool.WellFormed) (slot : Fin k) (hc : c.Valid s.pool)
    (counts : List Nat) :
    ∃ outcomes, ∃ sizes : List Nat, ∃ c',
      Session.run step (s.put slot c) (forward slot counts) = (outcomes, .ok (s.put slot c')) ∧
        outcomes.map Outcome.reply = sizes.map Reply.size ∧
        sizes.sum = min counts.sum (c.ahead s.pool).length ∧ c.Moves s.pool counts.sum c' := by
  induction counts generalizing c with
  | nil => exact ⟨[], [], c, rfl, rfl, (Nat.zero_min _).symm, hc.moves_zero⟩
  | cons count counts ih =>
      obtain ⟨c₁, hstep, hm₁⟩ := step_advance h slot hc count
      obtain ⟨outcomes, sizes, c₂, hrun, hreplies, hsum, hm₂⟩ := ih hm₁.valid
      refine ⟨_, min count (c.ahead s.pool).length :: sizes, c₂,
        Session.run_cons_of_run step hstep hrun, ?_, ?_, ?_⟩
      · rw [List.map_cons, List.map_cons, hreplies]
        rfl
      · -- what the first step has passed is no longer ahead of the others
        rw [hm₁.length_ahead] at hsum
        rw [List.sum_cons, List.sum_cons]
        omega
      · rw [List.sum_cons]
        exact hm₁.trans hm₂

end BufferSession

/-- **Steps forward are truncated addition.**  A step on a valid cursor never fails and passes as many
bytes as it was meant to or, if these are fewer, all bytes ahead, and in this case the cursor has
finished; it changes nothing but the cursor.  Steps that follow one another come to where one step by
their sum comes.  A step by no bytes leaves any cursor where it is, even one that is stale, in any
pool. -/
theorem steps_forward_add_up {s : BufferSession n m k} {slot : Fin k} {c : ByteCursor n m}
    (h : s.pool.WellFormed) (hslot : s.slots.get slot = some c) (hc : c.Valid s.pool) :
    (∀ count, ∃ c', s.step (.through slot (.advance count)) =
        .ok ((s.put slot c').answer (.size (min count (c.ahead s.pool).length))) ∧
      c.Moves s.pool (min count (c.ahead s.pool).length) c' ∧
      (c' = c.finish ↔ (c.ahead s.pool).length ≤ count)) ∧
    (∀ counts, ∃ outcomes, ∃ sizes : List Nat, ∃ c',
      Session.run BufferSession.step s (BufferSession.forward slot counts) =
        (outcomes, .ok (s.put slot c')) ∧
      outcomes.map Outcome.reply = sizes.map Reply.size ∧
      s.step (.through slot (.advance counts.sum)) =
        .ok ((s.put slot c').answer (.size sizes.sum))) ∧
    ∀ (t : BufferSession n m k) (i : Fin k) (e : ByteCursor n m), t.slots.get i = some e →
      t.step (.through i (.advance 0)) = .ok (t.answer (.size 0)) := by
  have hput := BufferSession.put_of_get hslot
  refine ⟨fun count => ?_, fun counts => ?_, fun t i e hi => ?_⟩
  · obtain ⟨c', hstep, hm⟩ := BufferSession.step_advance h slot hc count
    rw [hput] at hstep
    exact ⟨c', hstep, hm.truncate, hm.eq_finish_iff h⟩
  · obtain ⟨outcomes, sizes, c', hrun, hreplies, hsum, hm⟩ :=
      BufferSession.run_forward h slot hc counts
    obtain ⟨c'', hstep, hm'⟩ := BufferSession.step_advance h slot hc counts.sum
    obtain rfl := hm.unique h hm'
    rw [hput] at hrun hstep
    exact ⟨outcomes, sizes, c', hrun, hreplies, hsum ▸ hstep⟩
  · simp only [BufferSession.step, hi, BufferSession.stepThrough, ByteCursor.advance_zero, bind,
      Except.bind, pure, Except.pure, BufferSession.put_of_get hi]

/-- Three steps over spans that have more bytes together than a size can tell.  The first comes exactly
to the end of a span in front of an empty one, and the third over the end of a span that the second
has entered. -/
theorem steps_forward_add_up_beyond_sizes :
    let pool : Pool Span 5 1 :=
      ⟨#v[⟨⟨some 1, none⟩, ⟨.inMemory 0, 3, by decide⟩⟩,
          ⟨⟨some 2, some 0⟩, .empty⟩,
          ⟨⟨some 3, some 1⟩, ⟨.absolute 16, 18446744073709551610, by decide⟩⟩,
          ⟨⟨some 4, some 2⟩, .empty⟩,
          ⟨⟨none, some 3⟩, ⟨.absolute 16, 18446744073709551610, by decide⟩⟩],
        #v[⟨some 0, some 4⟩]⟩
    let c : ByteCursor 5 1 := ⟨⟨0, some 0⟩, 1⟩
    let c' : ByteCursor 5 1 := ⟨⟨0, some 4⟩, 2⟩
    let s : BufferSession 5 1 1 := ⟨pool, .pattern 3 0 1, #v[some c]⟩
    pool.WellFormed ∧ c.Valid pool ∧
      ∃ outcomes, ∃ sizes : List Nat,
        Session.run BufferSession.step s
          (BufferSession.forward 0 [2, 18446744073709551605, 7]) = (outcomes, .ok (s.put 0 c')) ∧
        outcomes.map Outcome.reply = sizes.map Reply.size ∧ sizes.sum = 18446744073709551614 := by
  intro pool c c' s
  have h : pool.WellFormed := by decide
  have hc : c.Valid pool := by decide
  have hslot : s.slots.get 0 = some c := rfl
  have honce : c.advance s.pool 18446744073709551614 = .ok (c', 18446744073709551614) := by
    decide +kernel
  have hstep : s.step (.through 0 (.advance 18446744073709551614)) =
      .ok ((s.put 0 c').answer (.size 18446744073709551614)) := by
    simp only [BufferSession.step, hslot, BufferSession.stepThrough, honce, bind, Except.bind, pure,
      Except.pure]
  obtain ⟨outcomes, sizes, c₁, hrun, hreplies, hsum⟩ :=
    (steps_forward_add_up h hslot hc).2.1 [2, 18446744073709551605, 7]
  -- one step by the sum has come to the same state and told the same number
  have hsame := Except.ok.inj (hsum.symm.trans hstep)
  have hput : s.put 0 c₁ = s.put 0 c' := congrArg Outcome.state hsame
  have hsize : sizes.sum = 18446744073709551614 :=
    Reply.size.inj (congrArg Outcome.reply hsame)
  exact ⟨h, hc, outcomes, sizes, hput ▸ hrun, hreplies, hsize⟩

end SpanChain
