/-
**Reading at once and byte by byte.**

The bytes ahead of a cursor are read at once, in pieces that end where a span ends or where there is no
room left, or one by one.  Both ways give the bytes at the next addresses, in the order of the spans,
and come to the same place.

Main results:

* `SpanChain.BufferSession.step_readByte_of_cons`, `SpanChain.BufferSession.step_readByte_of_nil` — a
  single byte read in a session, and what is answered at the end;
* `SpanChain.BufferSession.run_readByte` — **a run of single bytes**;
* `SpanChain.flat_copy_matches_byte_walk` — **reading at once is reading byte by byte**.
-/

import SpanChain.Proofs.Bytes.Forward

set_option relaxedAutoImplicit false
set_option autoImplicit false

namespace SpanChain

variable {n m k : Nat}

namespace BufferSession

variable {s : BufferSession n m k} {c : ByteCursor n m} {a : Address} {as bs : List Address}

/-! ### Single bytes -/

theorem step_readByte_of_cons (h : s.pool.WellFormed) (slot : Fin k) (hc : c.Valid s.pool)
    (hahead : c.ahead s.pool = a :: as) :
    ∃ c', (s.put slot c).step (.through slot .readByte) =
        .ok ((s.put slot c').answer (.byte (some (s.memory.get a)))) ∧ c.Moves s.pool 1 c' := by
  obtain ⟨c', hc', hm⟩ := c.readByte_of_cons s.memory h hc hahead
  refine ⟨c', ?_, hm⟩
  simp only [step, slots_put_self, stepThrough, pool_put, memory_put, hc', bind, Except.bind, pure,
    Except.pure, put_put]

/-- At the end no byte is read, and nothing changes. -/
theorem step_readByte_of_nil (h : s.pool.WellFormed) (slot : Fin k) (hc : c.Valid s.pool)
    (hahead : c.ahead s.pool = []) :
    (s.put slot c).step (.through slot .readByte) = .ok ((s.put slot c).answer (.byte none)) := by
  have hread := c.readByte_of_nil s.memory h hc hahead
  simp only [step, slots_put_self, stepThrough, pool_put, memory_put, hread, bind, Except.bind, pure,
    Except.pure, put_put]

/-- **A run of single bytes** gives the bytes at the addresses that come first, one for each. -/
theorem run_readByte (h : s.pool.WellFormed) (slot : Fin k) (hc : c.Valid s.pool)
    (hahead : c.ahead s.pool = as ++ bs) :
    ∃ outcomes c',
      Session.run step (s.put slot c) (List.replicate as.length (.through slot .readByte)) =
          (outcomes, .ok (s.put slot c')) ∧
        outcomes.map Outcome.reply = as.map (fun a => .byte (some (s.memory.get a))) ∧
        c.Moves s.pool as.length c' := by
  induction as generalizing c with
  | nil => exact ⟨[], c, rfl, rfl, hc.moves_zero⟩
  | cons a as ih =>
      obtain ⟨c₁, hstep, hm₁⟩ := step_readByte_of_cons h slot hc hahead
      have hahead₁ : c₁.ahead s.pool = as ++ bs := by
        rw [hm₁.ahead, hahead, List.cons_append, List.drop_one, List.tail_cons]
      obtain ⟨outcomes, c₂, hrun, hreplies, hm₂⟩ := ih hm₁.valid hahead₁
      refine ⟨_, c₂, Session.run_cons_of_run step hstep hrun, ?_, ?_⟩
      · rw [List.map_cons, List.map_cons, hreplies]
        rfl
      · rw [List.length_cons, Nat.add_comm]
        exact hm₁.trans hm₂

/-! ### Many bytes -/

/-- Reading at once gives the bytes at the next addresses, as many as there is room for or up to the
end, and leaves the rest of the row that it reads into. -/
theorem step_copyInto (h : s.pool.WellFormed) (slot : Fin k) (hc : c.Valid s.pool)
    (dst : List UInt8) {count : Nat} (hcount : count = min dst.length (c.ahead s.pool).length) :
    ∃ c', (s.put slot c).step (.through slot (.copyInto dst)) =
        .ok ((s.put slot c').answer
          (.read count (((c.ahead s.pool).take count).map s.memory.get ++ dst.drop count))) ∧
      c.Moves s.pool count c' := by
  obtain ⟨c', hc', hm⟩ := c.copyInto_eq s.memory h hc dst
  refine ⟨c', ?_, hcount ▸ hm.truncate⟩
  rw [List.take_eq_take_min, ← hcount] at hc'
  simp only [step, slots_put_self, stepThrough, pool_put, memory_put, hc', bind, Except.bind, pure,
    Except.pure, put_put]

end BufferSession

/-- **Reading at once is reading byte by byte.**  A valid cursor reads over the front of a row as many
bytes as the row has room for or, if these are fewer, all bytes ahead.  They are the bytes at the next
addresses, and the cursor comes to where a step forward by their number comes.  Single reads through a
copy of the cursor, as many of them, give the same bytes in the same order and come to the same place.
A single read gives no byte exactly if the cursor has finished, and then changes nothing. -/
theorem flat_copy_matches_byte_walk {s : BufferSession n m k} {slot : Fin k} {c : ByteCursor n m}
    (h : s.pool.WellFormed) (hslot : s.slots.get slot = some c) (hc : c.Valid s.pool)
    (dst : List UInt8) :
    ∃ count bytes c', count = min dst.length (c.ahead s.pool).length ∧
      bytes = ((c.ahead s.pool).take count).map s.memory.get ∧
      s.step (.through slot (.copyInto dst)) =
        .ok ((s.put slot c').answer (.read count (bytes ++ dst.drop count))) ∧
      s.step (.through slot (.advance count)) = .ok ((s.put slot c').answer (.size count)) ∧
      (∀ twin, ∃ outcomes,
        Session.run BufferSession.step (s.put twin c)
          (List.replicate count (.through twin .readByte)) = (outcomes, .ok (s.put twin c')) ∧
        outcomes.map Outcome.reply = bytes.map fun b => .byte (some b)) ∧
      ∃ o, s.step (.through slot .readByte) = .ok o ∧
        (o.reply = .byte none ↔ c.isActive = false) ∧ (o.reply = .byte none → o.state = s) := by
  have hput := BufferSession.put_of_get hslot
  obtain ⟨count, hcount⟩ : ∃ count, count = min dst.length (c.ahead s.pool).length := ⟨_, rfl⟩
  have hle : count ≤ (c.ahead s.pool).length := by omega
  obtain ⟨c', hread, hm⟩ := BufferSession.step_copyInto h slot hc dst hcount
  obtain ⟨c₁, hforward, hm₁⟩ := BufferSession.step_advance h slot hc count
  obtain rfl := hm.unique h hm₁
  rw [hput] at hread hforward
  rw [Nat.min_eq_left hle] at hforward
  refine ⟨count, _, c', hcount, rfl, hread, hforward, fun twin => ?_, ?_⟩
  · obtain ⟨outcomes, c₂, hrun, hreplies, hm₂⟩ :=
      BufferSession.run_readByte h twin hc (List.take_append_drop count _).symm
    rw [List.length_take_of_le hle] at hrun hm₂
    obtain rfl := hm.unique h hm₂
    refine ⟨outcomes, hrun, ?_⟩
    rw [hreplies, List.map_map]
    rfl
  · rw [hc.isActive_eq_false_iff h]
    cases hahead : c.ahead s.pool with
    | nil =>
        have hstep := BufferSession.step_readByte_of_nil h slot hc hahead
        rw [hput] at hstep
        exact ⟨_, hstep, by simp [BufferSession.answer], fun _ => rfl⟩
    | cons a as =>
        obtain ⟨c₃, hstep, -⟩ := BufferSession.step_readByte_of_cons h slot hc hahead
        rw [hput] at hstep
        exact ⟨_, hstep, by simp [BufferSession.answer], by simp [BufferSession.answer]⟩

/-- Two spans that overlap in memory, with an empty one between them, are read over a row that has room
for one byte more than there are.  A copy of the cursor in another slot reads them one by one. -/
theorem flat_copy_matches_byte_walk_overlapping :
    let pool : Pool Span 3 1 :=
      ⟨#v[⟨⟨some 1, none⟩, ⟨.inMemory 2, 3, by decide⟩⟩,
          ⟨⟨some 2, some 0⟩, .empty⟩,
          ⟨⟨none, some 1⟩, ⟨.inMemory 0, 4, by decide⟩⟩],
        #v[⟨some 0, some 2⟩]⟩
    let c : ByteCursor 3 1 := ⟨⟨0, some 0⟩, 1⟩
    let s : BufferSession 3 1 2 := ⟨pool, .pattern 5 10 1, #v[some c, none]⟩
    pool.WellFormed ∧ c.Valid pool ∧
      ∃ c' o outcomes, s.step (.through 0 (.copyInto [0, 0, 0, 0, 0, 0, 99])) = .ok o ∧
        o = (s.put 0 c').answer (.read 6 [13, 14, 10, 11, 12, 13, 99]) ∧
        Session.run BufferSession.step (s.put 1 c) (List.replicate 6 (.through 1 .readByte)) =
          (outcomes, .ok (s.put 1 c')) ∧
        outcomes.map Outcome.reply = [13, 14, 10, 11, 12, 13].map fun b => .byte (some b) := by
  intro pool c s
  have h : pool.WellFormed := by decide
  have hc : c.Valid pool := by decide
  have hslot : s.slots.get 0 = some c := rfl
  obtain ⟨count, bytes, c', hcount, hbytes, hread, -, hwalk, -⟩ :=
    flat_copy_matches_byte_walk h hslot hc [0, 0, 0, 0, 0, 0, 99]
  obtain rfl : count = 6 := hcount.trans (by decide)
  obtain rfl : bytes = [13, 14, 10, 11, 12, 13] := hbytes.trans (by decide +kernel)
  obtain ⟨outcomes, hrun, hreplies⟩ := hwalk 1
  exact ⟨h, hc, c', _, outcomes, hread, rfl, hrun, hreplies⟩

end SpanChain
