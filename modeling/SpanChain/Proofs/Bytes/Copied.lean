/-
**Copying between two cursors.**

A copy moves as many bytes as it was asked for, or as many as the side with fewer bytes ahead has.
Both cursors come to where an advance by that number would have brought them, and nothing is
written but the addresses that the destination has passed.  These show what the source showed there,
if they are distinct and the source has passed none of them.

Main definitions:

* `SpanChain.BufferSession.Copied` — what a copy of a session leads to.

Main results:

* `SpanChain.copy_moves_in_step` — **every copy between two valid cursors** leads to that.
-/

import SpanChain.Proofs.Bytes.Pieces
import SpanChain.Session.Buffers

set_option relaxedAutoImplicit false
set_option autoImplicit false

namespace SpanChain

variable {n m k : Nat}

/-- What a session comes to when `moved` bytes are copied from the cursor `c` in one slot to the cursor
`d` in another. -/
structure BufferSession.Copied (s : BufferSession n m k) (slot dst : Fin k) (c d : ByteCursor n m)
    (moved : Nat) (o : Outcome Span n (BufferSession n m k)) : Prop where
  /-- The number of bytes is told. -/
  reply : o.reply = .wrote moved o.state.memory
  /-- Each slot holds the cursor that an advance by this number leads to.  The pool and all other
  slots are as they were. -/
  state : ∃ c' d', c.advance s.pool moved = .ok (c', moved) ∧
    d.advance s.pool moved = .ok (d', moved) ∧
    o.state = ((s.setMemory o.state.memory).put slot c').put dst d'
  /-- The memory is as large as it was. -/
  size : o.state.memory.bytes.size = s.memory.bytes.size
  /-- Only the next addresses of the destination are written to. -/
  kept : ∀ a ∉ (d.ahead s.pool).take moved, o.state.memory.get a = s.memory.get a
  /-- Inside the memory, if they are distinct and none of them is read from, they show the bytes that
  the next addresses of the source showed before. -/
  written : (∀ a ∈ (d.ahead s.pool).take moved, (s.memory.index? a).isSome) →
    ((d.ahead s.pool).take moved).Nodup →
    (∀ a ∈ (c.ahead s.pool).take moved, a ∉ (d.ahead s.pool).take moved) →
    ((d.ahead s.pool).take moved).map o.state.memory.get =
      ((c.ahead s.pool).take moved).map s.memory.get

/-- **Every copy between two valid cursors moves both of them in step**, by the number asked for or
by as many bytes as the side with fewer of them has ahead.  The cursors are on one list or on two, and
there may be more bytes ahead than a size can tell. -/
theorem copy_moves_in_step {s : BufferSession n m k} {slot dst : Fin k} {c d : ByteCursor n m}
    (h : s.pool.WellFormed) (hslot : s.slots.get slot = some c) (hdst : s.slots.get dst = some d)
    (hne : slot ≠ dst) (hc : c.Valid s.pool) (hd : d.Valid s.pool) (count : Nat) :
    ∃ o, s.step (.through slot (.copyTo dst count)) = .ok o ∧
      s.Copied slot dst c d
        (min count (min (c.ahead s.pool).length (d.ahead s.pool).length)) o := by
  obtain ⟨bs, c', d', moved, hcopy, hmoved, hmc, hmd, hfetched⟩ :=
    c.copyTo_eq s.memory h hc hd count
  have hleft : moved ≤ (c.ahead s.pool).length := by omega
  have hroom : moved ≤ (d.ahead s.pool).length := by omega
  -- all that is known of the memory is what was stored and where
  generalize hmem : s.memory.storeAt ((d.ahead s.pool).take moved) bs = mem at hcopy
  rw [← hmoved]
  refine ⟨(((s.setMemory mem).put slot c').put dst d').answer (.wrote moved mem), ?_, rfl,
    ⟨c', d', hmc.advance h hc hleft, hmd.advance h hd hroom, rfl⟩, ?_, fun a ha => ?_,
    fun hin hnodup hapart => ?_⟩
  · simp only [BufferSession.step, hslot, BufferSession.stepThrough, hdst, if_neg hne, hcopy, bind,
      Except.bind, pure, Except.pure]
  · exact hmem ▸ Memory.size_storeAt
  · exact hmem ▸ Memory.get_storeAt_of_notMem ha
  · rw [← hfetched.eq_map hapart]
    exact hmem ▸ Memory.map_get_storeAt (hfetched.length_take hleft hroom) hnodup hin

/-- A copy from the middle of one chain into the middle of another, over an empty span on one side and
over spans that do not follow one another on the other. -/
theorem copy_moves_in_step_across_spans :
    let pool : Pool Span 6 2 :=
      ⟨#v[⟨⟨some 1, none⟩, ⟨.inMemory 0, 3, by decide⟩⟩,
          ⟨⟨some 2, some 0⟩, .empty⟩,
          ⟨⟨none, some 1⟩, ⟨.inMemory 3, 4, by decide⟩⟩,
          ⟨⟨some 4, none⟩, ⟨.inMemory 20, 2, by decide⟩⟩,
          ⟨⟨some 5, some 3⟩, ⟨.inMemory 30, 1, by decide⟩⟩,
          ⟨⟨none, some 4⟩, ⟨.inMemory 22, 5, by decide⟩⟩],
        #v[⟨some 0, some 2⟩, ⟨some 3, some 5⟩]⟩
    let c : ByteCursor 6 2 := ⟨⟨0, some 0⟩, 1⟩
    let d : ByteCursor 6 2 := ⟨⟨1, some 3⟩, 1⟩
    let s : BufferSession 6 2 2 := ⟨pool, .pattern 32 0 1, #v[some c, some d]⟩
    pool.WellFormed ∧ c.Valid pool ∧ d.Valid pool ∧
      ∃ o, s.step (.through 0 (.copyTo 1 5)) = .ok o ∧ s.Copied 0 1 c d 5 o ∧
        ([21, 30, 22, 23, 24].map Address.inMemory).map o.state.memory.get = [1, 2, 3, 4, 5] := by
  intro pool c d s
  have h : pool.WellFormed := by decide
  have hc : c.Valid pool := by decide
  have hd : d.Valid pool := by decide
  obtain ⟨o, ho, hcopied⟩ : ∃ o, s.step (.through 0 (.copyTo 1 5)) = .ok o ∧ s.Copied 0 1 c d 5 o :=
    copy_moves_in_step h rfl rfl (by decide) hc hd 5
  have hto : (d.ahead pool).take 5 = [21, 30, 22, 23, 24].map .inMemory := by decide
  have hread : ((c.ahead pool).take 5).map s.memory.get = [1, 2, 3, 4, 5] := by decide +kernel
  have hwritten := hcopied.written (by decide +kernel) (by decide) (by decide)
  exact ⟨h, hc, hd, o, ho, hcopied, hto ▸ hwritten.trans hread⟩

end SpanChain
