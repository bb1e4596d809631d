/-
**Copying against copying by way of a buffer.**

By way of a buffer all bytes of a copy are read before any is written.  A copy that goes piece by
piece does the same to the cursors, and to the memory as long as no piece reads what an earlier one
has written; otherwise it need not.

Main definitions:

* `SpanChain.ByteCursor.copyBuffered` — copying by way of a buffer;
* `SpanChain.Memory.Unhindered` — no piece reads what an earlier one has written.

Main results:

* `SpanChain.Memory.movePieces_eq_moveAll` — unhindered pieces come to what all bytes at once come
  to;
* `SpanChain.copies_piece_by_piece` — **every copy beside the one by way of a buffer**;
* `SpanChain.copies_overlapping_pieces_otherwise` — a copy that leaves other bytes than the one by
  way of a buffer.
-/

import SpanChain.Proofs.Bytes.Pieces

set_option relaxedAutoImplicit false
set_option autoImplicit false

namespace SpanChain

variable {n m : Nat}

/-! ### Pieces that do not hinder each other -/

namespace Memory

variable {mem : Memory} {z w : List (Lane n)}

/-- The second row of moves reads nothing that the first one has written. -/
def ReadsKept (z w : List (Lane n)) : Prop :=
  ∀ a ∈ z, ∀ b ∈ w, a.2.address ≠ b.1.address

instance (z w : List (Lane n)) : Decidable (ReadsKept z w) :=
  inferInstanceAs (Decidable (∀ a ∈ z, ∀ b ∈ w, a.2.address ≠ b.1.address))

/-- Moves that read nothing that others have written can be made behind these. -/
theorem moveAll_append (h : ReadsKept z w) :
    mem.moveAll (z ++ w) = (mem.moveAll z).moveAll w := by
  have hkept : (w.map fun b => b.1.address).map mem.get =
      (w.map fun b => b.1.address).map (mem.moveAll z).get := by
    refine List.map_congr_left fun x hx => (get_storeAt_of_notMem fun hmem => ?_).symm
    obtain ⟨b, hb, rfl⟩ := List.mem_map.1 hx
    obtain ⟨a, ha, hab⟩ := List.mem_map.1 hmem
    exact h a ha b hb hab
  rw [moveAll, List.map_append, List.map_append, List.map_append, storeAt_append (by simp), hkept]
  rfl

theorem foldl_moveAll {gs : List (List (Lane n))} (h : gs.Pairwise ReadsKept) :
    gs.foldl moveAll mem = mem.moveAll gs.flatten := by
  induction gs generalizing mem with
  | nil => rfl
  | cons z gs ih =>
      obtain ⟨hz, hgs⟩ := List.pairwise_cons.1 h
      rw [List.foldl_cons, ih hgs, List.flatten_cons, moveAll_append]
      intro a ha b hb
      obtain ⟨w, hw, hbw⟩ := List.mem_flatten.1 hb
      exact hz w hw a ha b hbw

/-- No piece reads what an earlier one has written. -/
def Unhindered (z : List (Lane n)) : Prop := (pieces z).Pairwise ReadsKept

instance (z : List (Lane n)) : Decidable (Unhindered z) :=
  inferInstanceAs (Decidable ((pieces z).Pairwise ReadsKept))

/-- **Unhindered pieces come to what all moves at once come to.** -/
theorem movePieces_eq_moveAll (h : Unhindered z) : mem.movePieces z = mem.moveAll z := by
  rw [movePieces, foldl_moveAll h, flatten_pieces]

end Memory

/-! ### Copying by way of a buffer -/

namespace ByteCursor

variable {p : Pool Span n m} {c d : ByteCursor n m} {k : Nat} (mem : Memory)

/-- Copies `k` bytes from one cursor to another by way of a buffer: they are read over the bytes of
the buffer, and written from there. -/
def copyBuffered (p : Pool Span n m) (mem : Memory) (src dst : ByteCursor n m) (k : Nat) :
    Except Fault (Nat × Memory × ByteCursor n m × ByteCursor n m) := do
  let (_, buffer, src') ← src.copyInto p mem (List.replicate k 0)
  let (count, mem', dst') ← dst.write p mem buffer
  return (count, mem', src', dst')

/-- By way of a buffer all bytes are moved at once, if there are so many on both sides. -/
theorem copyBuffered_eq (h : p.WellFormed) (hc : c.Valid p) (hd : d.Valid p)
    (hk : k ≤ (c.ahead p).length) (hk' : k ≤ (d.ahead p).length) :
    ∃ c' d', c.Moves p k c' ∧ d.Moves p k d' ∧
      copyBuffered p mem c d k = .ok (k, mem.moveAll (lanes p c d k), c', d') := by
  obtain ⟨c', hread, hmc⟩ := readUpTo_eq mem h hc k
  have hbytes : (((c.ahead p).take k).map mem.get).length = k := by
    rw [List.length_map, List.length_take_of_le hk]
  obtain ⟨d', hwrite, hmd⟩ := write_eq mem h hd (((c.ahead p).take k).map mem.get)
  rw [hbytes] at hwrite hmd
  refine ⟨c', d', hmc, hmd, ?_⟩
  have hlanes : mem.moveAll (lanes p c d k) =
      mem.storeAt ((d.ahead p).take k) (((c.ahead p).take k).map mem.get) := by
    rw [Memory.moveAll, map_src_lanes h hc hd hk hk', map_dst_lanes h hc hd hk hk']
  have hbuffer : c.copyInto p mem (List.replicate k 0) =
      .ok (k, ((c.ahead p).take k).map mem.get, c') := by
    rw [copyInto, List.length_replicate, hread]
    simp only [bind, Except.bind, pure, Except.pure, hbytes, List.drop_replicate, Nat.sub_self,
      List.replicate_zero, List.append_nil]
  rw [copyBuffered, hbuffer, hlanes]
  simp only [bind, Except.bind, hwrite, pure, Except.pure, Nat.min_eq_left hk',
    List.take_of_length_le hbytes.le]

end ByteCursor

/-- **Every copy goes piece by piece**, as far as both sides have bytes.  It counts the same bytes and
moves both cursors to the same places as a copy by way of a buffer, which moves all bytes at once.  It
comes to the same memory, too, if no piece reads what an earlier one has written, and so whenever it
has one piece only, however its two sides overlap. -/
theorem copies_piece_by_piece {p : Pool Span n m} {c d : ByteCursor n m} (h : p.WellFormed)
    (hc : c.Valid p) (hd : d.Valid p) (mem : Memory) (count : Nat) :
    ∃ c' d' moved, moved = min count (min (c.ahead p).length (d.ahead p).length) ∧
      c.copyTo p mem d count = .ok (moved, mem.movePieces (c.lanes p d moved), c', d') ∧
      c.copyBuffered p mem d moved = .ok (moved, mem.moveAll (c.lanes p d moved), c', d') ∧
      (Memory.Unhindered (c.lanes p d moved) →
        c.copyTo p mem d count = c.copyBuffered p mem d moved) := by
  obtain ⟨c', d', moved, hmoved, hmc, hmd, hcopy⟩ := c.copyTo_pieces mem h hc hd count
  obtain ⟨c'', d'', hmc', hmd', hbuffered⟩ :=
    c.copyBuffered_eq mem h hc hd (k := moved) (by omega) (by omega)
  rw [hmc'.unique h hmc, hmd'.unique h hmd] at hbuffered
  refine ⟨c', d', moved, hmoved, hcopy, hbuffered, fun hfree => ?_⟩
  rw [hcopy, hbuffered, Memory.movePieces_eq_moveAll hfree]

/-- Bytes are copied one place down within one buffer, in three pieces.  Each piece is written to where
the one in front of it was read. -/
theorem copies_piece_by_piece_downward :
    let pool : Pool Span 5 2 :=
      ⟨#v[⟨⟨some 1, none⟩, ⟨.inMemory 1, 2, by decide⟩⟩,
          ⟨⟨some 2, some 0⟩, .empty⟩,
          ⟨⟨none, some 1⟩, ⟨.inMemory 3, 3, by decide⟩⟩,
          ⟨⟨some 4, none⟩, ⟨.inMemory 0, 3, by decide⟩⟩,
          ⟨⟨none, some 3⟩, ⟨.inMemory 3, 2, by decide⟩⟩],
        #v[⟨some 0, some 2⟩, ⟨some 3, some 4⟩]⟩
    let c : ByteCursor 5 2 := ⟨⟨0, some 0⟩, 1⟩
    let d : ByteCursor 5 2 := ⟨⟨1, some 3⟩, 1⟩
    let mem : Memory := .pattern 6 10 1
    pool.WellFormed ∧ c.Valid pool ∧ d.Valid pool ∧
      (pieces (c.lanes pool d 4)).map List.length = [1, 1, 2] ∧
      Memory.Unhindered (c.lanes pool d 4) ∧
      c.copyTo pool mem d 9 = c.copyBuffered pool mem d 4 := by
  intro pool c d mem
  have h : pool.WellFormed := by decide
  have hc : c.Valid pool := by decide
  have hd : d.Valid pool := by decide
  have hfree : Memory.Unhindered (c.lanes pool d 4) := by decide +kernel
  obtain ⟨c', d', moved, hmoved, -, -, hsame⟩ := copies_piece_by_piece h hc hd mem 9
  obtain rfl : moved = 4 := hmoved.trans (by decide)
  exact ⟨h, hc, hd, by decide +kernel, hfree, hsame hfree⟩

/-- Two spans of one buffer are copied to a place that overlaps them both: what the first piece writes
is where the second one reads. -/
theorem copies_overlapping_pieces_otherwise :
    let pool : Pool Span 3 2 :=
      ⟨#v[⟨⟨some 1, none⟩, ⟨.inMemory 0, 1, by decide⟩⟩,
          ⟨⟨none, some 0⟩, ⟨.inMemory 1, 2, by decide⟩⟩,
          ⟨⟨none, none⟩, ⟨.inMemory 1, 3, by decide⟩⟩],
        #v[⟨some 0, some 1⟩, ⟨some 2, some 2⟩]⟩
    let c : ByteCursor 3 2 := ⟨⟨0, some 0⟩, 0⟩
    let d : ByteCursor 3 2 := ⟨⟨1, some 2⟩, 0⟩
    let mem : Memory := ⟨#[10, 11, 12, 13]⟩
    pool.WellFormed ∧ c.Valid pool ∧ d.Valid pool ∧ (∀ x, mem.holds (pool.data x)) ∧
      c.copyTo pool mem d 3 =
        .ok (3, ⟨#[10, 10, 10, 12]⟩, ⟨⟨0, none⟩, 0⟩, ⟨⟨1, none⟩, 0⟩) ∧
      c.copyBuffered pool mem d 3 =
        .ok (3, ⟨#[10, 10, 11, 12]⟩, ⟨⟨0, none⟩, 0⟩, ⟨⟨1, none⟩, 0⟩) :=
  ⟨by decide, by decide, by decide, by decide, by decide +kernel, by decide +kernel⟩

end SpanChain
