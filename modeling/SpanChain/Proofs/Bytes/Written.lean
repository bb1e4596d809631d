/-
**Writing at once and byte by byte.**

A row of bytes is written at once, in pieces that end where a span ends, or byte by byte until one
finds no room.  Spans may overlap, so the same address may be written to more than once; both ways
write to the same addresses in the same order, and leave the same memory.

Main definitions:

* `SpanChain.ByteCursor.writeEach` — writing byte by byte.

Main results:

* `SpanChain.ByteCursor.writeEach_eq` — what it leaves in the memory;
* `SpanChain.ByteCursor.write_eq_writeEach` — **both ways of writing are one**;
* `SpanChain.BufferSession.step_write` — a write in a session;
* `SpanChain.BufferSession.run_copy_write_read` — what was written is read back through a copy of the
  cursor;
* `SpanChain.write_agrees_with_single_bytes` — all of this of one write.
-/

import SpanChain.Proofs.Bytes.Flattened

set_option relaxedAutoImplicit false
set_option autoImplicit false

namespace SpanChain

variable {n m k : Nat}

namespace ByteCursor

variable {p : Pool Span n m} {c : ByteCursor n m}

/-! ### Byte by byte -/

/-- Writes the bytes of a row in turn until one of them finds no room or the row is used up, and tells
how many were written. -/
def writeEach (p : Pool Span n m) (mem : Memory) (c : ByteCursor n m) :
    List UInt8 → Except Fault (Nat × Memory × ByteCursor n m)
  | [] => .ok (0, mem, c)
  | b :: row => do
    let (count, mem, c) ← c.writeByte p mem b
    if count = 0 then return (0, mem, c)
    let (more, mem, c) ← c.writeEach p mem row
    return (count + more, mem, c)

/-- Byte by byte, as many bytes are written as there is room for, each to the next address. -/
theorem writeEach_eq (h : p.WellFormed) (hc : c.Valid p) (mem : Memory) (row : List UInt8) :
    ∃ c', c.writeEach p mem row = .ok (min row.length (c.ahead p).length,
        mem.storeAt ((c.ahead p).take row.length) (row.take (min row.length (c.ahead p).length)),
        c') ∧
      c.Moves p row.length c' := by
  -- each byte goes to an address of its own, so the row and what is ahead get shorter together
  induction row generalizing mem c with
  | nil => exact ⟨c, by rw [List.length_nil, Nat.zero_min]; rfl, hc.moves_zero⟩
  | cons b row ih =>
      cases hahead : c.ahead p with
      | nil =>
          have hfull := c.writeByte_of_nil mem h hc hahead b
          refine ⟨c, ?_, hc.moves_of_nil hahead _⟩
          rw [writeEach, hfull, List.length_nil, Nat.min_zero]
          rfl
      | cons a as =>
          obtain ⟨c₁, hbyte, hm₁⟩ := c.writeByte_of_cons mem h hc hahead b
          have hahead₁ : c₁.ahead p = as := by rw [hm₁.ahead, hahead, List.drop_one, List.tail_cons]
          obtain ⟨c₂, hrow, hm₂⟩ := ih hm₁.valid (mem.set a b)
          rw [hahead₁] at hrow
          refine ⟨c₂, ?_, ?_⟩
          · rw [writeEach, hbyte, List.length_cons, List.length_cons, Nat.succ_min_succ,
              List.take_succ_cons, List.take_succ_cons, Memory.storeAt, Nat.succ_eq_one_add]
            simp only [bind, Except.bind, pure, Except.pure, one_ne_zero, if_false, hrow]
          · rw [List.length_cons, Nat.add_comm]
            exact hm₁.trans hm₂

/-- **Writing at once is writing byte by byte.** -/
theorem write_eq_writeEach (h : p.WellFormed) (hc : c.Valid p) (mem : Memory) (row : List UInt8) :
    c.write p mem row = c.writeEach p mem row := by
  obtain ⟨c₁, hwrite, hm₁⟩ := c.write_eq mem h hc row
  obtain ⟨c₂, heach, hm₂⟩ := writeEach_eq h hc mem row
  rw [hwrite, heach, hm₁.unique h hm₂]

/-- Where all spans with bytes lie in the memory, the addresses ahead are inside. -/
theorem isSome_index?_of_mem_ahead {mem : Memory} {a : Address} (h : p.WellFormed) (hc : c.Valid p)
    (hin : ∀ x ∈ p.members c.list, 0 < p.len x → mem.holds (p.data x) = true)
    (ha : a ∈ c.ahead p) : (mem.index? a).isSome := by
  have hmem := (ahead_suffix h hc).subset ha
  rw [p.addresses_eq_rowAddresses, Pool.rowAddresses, List.mem_flatMap] at hmem
  obtain ⟨x, hx, hax⟩ := hmem
  have hpos : 0 < p.len x := by
    rw [← p.length_addresses_data]
    exact List.length_pos_of_mem hax
  exact Memory.isSome_index?_of_holds (hin x hx hpos) hax

end ByteCursor

/-! ### In a session -/

namespace BufferSession

variable {s : BufferSession n m k} {c : ByteCursor n m} {slot twin : Fin k}

/-- A write stores as many bytes as there is room for at the next addresses, and changes nothing else
but the cursor. -/
theorem step_write (h : s.pool.WellFormed) (hslot : s.slots.get slot = some c)
    (hc : c.Valid s.pool) (row : List UInt8) {count : Nat}
    (hcount : count = min row.length (c.ahead s.pool).length) :
    ∃ mem c', s.step (.through slot (.write row)) =
        .ok (((s.setMemory mem).put slot c').answer (.wrote count mem)) ∧
      c.write s.pool s.memory row = .ok (count, mem, c') ∧
      mem = s.memory.storeAt ((c.ahead s.pool).take count) (row.take count) ∧
      c.Moves s.pool count c' := by
  obtain ⟨c', hwrite, hm⟩ := c.write_eq s.memory h hc row
  rw [List.take_eq_take_min, ← hcount] at hwrite
  refine ⟨_, c', ?_, hwrite, rfl, hcount ▸ hm.truncate⟩
  simp only [step, hslot, stepThrough, hwrite, bind, Except.bind, pure, Except.pure]

/-- **What was written is read back** through a copy that was made of the cursor before, if no address
was written to twice. -/
theorem run_copy_write_read (h : s.pool.WellFormed) (hslot : s.slots.get slot = some c)
    (hc : c.Valid s.pool) (hne : slot ≠ twin) (row dst : List UInt8)
    (hdst : dst.length = min row.length (c.ahead s.pool).length)
    (hin : ∀ a ∈ (c.ahead s.pool).take dst.length, (s.memory.index? a).isSome)
    (hnodup : ((c.ahead s.pool).take dst.length).Nodup) :
    ∃ outcomes mem c', c.write s.pool s.memory row = .ok (dst.length, mem, c') ∧
      Session.run step s
        [.through slot (.copy twin), .through slot (.write row), .through twin (.copyInto dst)] =
          (outcomes, .ok (((s.setMemory mem).put slot c').put twin c')) ∧
      outcomes.map Outcome.reply =
        [.done, .wrote dst.length mem, .read dst.length (row.take dst.length)] := by
  have hslot' : (s.put twin c).slots.get slot = some c := (slots_put_of_ne hne).trans hslot
  have hcopy : s.step (.through slot (.copy twin)) = .ok ((s.put twin c).answer .done) := by
    simp only [step, hslot, stepThrough]
  obtain ⟨mem, c', hwrite, heq, hmem, hm⟩ := step_write (s := s.put twin c) h hslot' hc row hdst
  -- the copy of the cursor still stands in front of the bytes written
  have hcomm : ((s.put twin c).setMemory mem).put slot c' =
      ((s.setMemory mem).put slot c').put twin c := put_comm (s := s.setMemory mem) hne c' c
  rw [hcomm] at hwrite
  have hroom : dst.length = min dst.length (c.ahead s.pool).length := by omega
  obtain ⟨c'', hread, hm'⟩ :=
    step_copyInto (s := (s.setMemory mem).put slot c') h twin hc dst hroom
  obtain rfl : c' = c'' := hm.unique h hm'
  rw [List.drop_length, List.append_nil] at hread
  have hlength : ((c.ahead s.pool).take dst.length).length = (row.take dst.length).length := by
    rw [List.length_take, List.length_take]
    omega
  have hback : ((c.ahead s.pool).take dst.length).map mem.get = row.take dst.length := by
    rw [hmem]
    exact Memory.map_get_storeAt hlength hnodup hin
  refine ⟨_, mem, c', heq, Session.run_cons_of_run step hcopy
    (Session.run_cons_of_run step hwrite (Session.run_cons_of_run step hread rfl)), ?_⟩
  rw [← hback]
  rfl

end BufferSession

/-- **Writing at once is writing byte by byte.**  A valid cursor writes as many bytes of a row as there
are bytes ahead or, if these are fewer, all of the row.  Single writes of the bytes of the row in turn,
until one of them finds no room, write as many and leave the same memory and the same cursor.  The pool
is left alone, and so are all addresses but those of the bytes written, even if spans overlap.  Where
these addresses are distinct and all spans with bytes lie in the memory, a copy that was made of the
cursor before reads back what was written. -/
theorem write_agrees_with_single_bytes {s : BufferSession n m k} {slot : Fin k}
    {c : ByteCursor n m} (h : s.pool.WellFormed) (hslot : s.slots.get slot = some c)
    (hc : c.Valid s.pool) (row : List UInt8) :
    ∃ count mem c', count = min row.length (c.ahead s.pool).length ∧
      s.step (.through slot (.write row)) =
        .ok (((s.setMemory mem).put slot c').answer (.wrote count mem)) ∧
      c.writeEach s.pool s.memory row = .ok (count, mem, c') ∧
      mem.bytes.size = s.memory.bytes.size ∧
      (∀ a ∉ (c.ahead s.pool).take count, mem.get a = s.memory.get a) ∧
      ((∀ x ∈ s.pool.members c.list, 0 < s.pool.len x →
          s.memory.holds (s.pool.data x) = true) →
        ((c.ahead s.pool).take count).Nodup →
        ∀ twin ≠ slot, ∀ dst, dst.length = count → ∃ outcomes,
          Session.run BufferSession.step s
            [.through slot (.copy twin), .through slot (.write row),
              .through twin (.copyInto dst)] =
                (outcomes, .ok (((s.setMemory mem).put slot c').put twin c')) ∧
          outcomes.map Outcome.reply = [.done, .wrote count mem, .read count (row.take count)]) := by
  obtain ⟨count, hcount⟩ : ∃ count, count = min row.length (c.ahead s.pool).length := ⟨_, rfl⟩
  obtain ⟨mem, c', hwrite, heq, hmem, hm⟩ := BufferSession.step_write h hslot hc row hcount
  refine ⟨count, mem, c', hcount, hwrite, ?_, ?_, fun a ha => ?_, ?_⟩
  · rw [← ByteCursor.write_eq_writeEach h hc, heq]
  · rw [hmem, Memory.size_storeAt]
  · rw [hmem, Memory.get_storeAt_of_notMem ha]
  · rintro hin hnodup twin hne dst rfl
    obtain ⟨outcomes, mem', c'', heq', hrun, hreplies⟩ :=
      BufferSession.run_copy_write_read h hslot hc hne.symm row dst hcount
        (fun a ha => ByteCursor.isSome_index?_of_mem_ahead h hc hin (List.mem_of_mem_take ha))
        hnodup
    -- it is the same write
    rw [heq] at heq'
    obtain ⟨-, rfl, rfl⟩ : dst.length = dst.length ∧ mem = mem' ∧ c' = c'' := by
      simpa using heq'
    exact ⟨outcomes, hrun, hreplies⟩

/-- A row that finds no room for its last two bytes.  The second span lies over bytes of the first one
that the cursor has passed, and empty spans stand around it. -/
theorem write_agrees_with_single_bytes_overlapping :
    let pool : Pool Span 4 1 :=
      ⟨#v[⟨⟨some 1, none⟩, ⟨.inMemory 2, 4, by decide⟩⟩,
          ⟨⟨some 2, some 0⟩, .empty⟩,
          ⟨⟨some 3, some 1⟩, ⟨.inMemory 2, 3, by decide⟩⟩,
          ⟨⟨none, some 2⟩, .empty⟩],
        #v[⟨some 0, some 3⟩]⟩
    let c : ByteCursor 4 1 := ⟨⟨0, some 0⟩, 3⟩
    let s : BufferSession 4 1 2 := ⟨pool, .pattern 8 0 1, #v[some c, none]⟩
    let mem : Memory := ⟨#[0, 1, 11, 12, 13, 10, 6, 7]⟩
    pool.WellFormed ∧ c.Valid pool ∧
      s.step (.through 0 (.write [10, 11, 12, 13, 14, 15])) =
        .ok (((s.setMemory mem).put 0 c.finish).answer (.wrote 4 mem)) ∧
      ∃ outcomes,
        Session.run BufferSession.step s
          [.through 0 (.copy 1), .through 0 (.write [10, 11, 12, 13, 14, 15]),
            .through 1 (.copyInto [0, 0, 0, 0])] =
              (outcomes, .ok (((s.setMemory mem).put 0 c.finish).put 1 c.finish)) ∧
        outcomes.map Outcome.reply = [.done, .wrote 4 mem, .read 4 [10, 11, 12, 13]] := by
  intro pool c s mem
  have h : pool.WellFormed := by decide
  have hc : c.Valid pool := by decide
  have hslot : s.slots.get 0 = some c := rfl
  have heach : c.writeEach pool s.memory [10, 11, 12, 13, 14, 15] = .ok (4, mem, c.finish) := by
    decide +kernel
  obtain ⟨count, mem', c', -, hwrite, hsingle, -, -, hread⟩ :=
    write_agrees_with_single_bytes h hslot hc [10, 11, 12, 13, 14, 15]
  obtain ⟨rfl, rfl, rfl⟩ : 4 = count ∧ mem = mem' ∧ c.finish = c' := by
    simpa using heach.symm.trans hsingle
  exact ⟨h, hc, hwrite,
    hread (by decide +kernel) (by decide) 1 (by decide) [0, 0, 0, 0] rfl⟩

end SpanChain
