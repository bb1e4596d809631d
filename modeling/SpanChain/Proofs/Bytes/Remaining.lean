/-
**How many bytes remain.**

The number of bytes from a cursor to the end is found in two ways: by moving there, and by a sum of
whole spans from which the offset of the cursor is taken off at the end.  The sum counts the bytes in
front of the cursor in its span as well, so it can leave the range of a size although the number of
bytes that are left does not.

A byte cursor looks at nodes only, never at the ends of lists.  So what is known of it in a pool of
well-formed lists holds wherever its own list is linked, and nothing is asked of the other lists.

Main definitions:

* `SpanChain.Pool.alone` — a pool with all lists but one emptied.

Main results:

* `SpanChain.ByteCursor.advance_congr`, `SpanChain.ByteCursor.remaining_congr` — a cursor does the
  same in pools with the same nodes;
* `SpanChain.Pool.Linked.represents_alone` — a linked list is well-formed alone;
* `SpanChain.remaining_counts_whole_spans` — **when the two ways agree**;
* `SpanChain.remaining_overflows_early` — bytes that can be moved past, but not counted.
-/

import SpanChain.Proofs.Bytes.Motion
import SpanChain.Session.Buffers

set_option relaxedAutoImplicit false
set_option autoImplicit false

namespace SpanChain

variable {α : Type} {n m k : Nat}

/-! ### What a cursor sees of a pool -/

namespace Pool

variable {p q : Pool Span n m}

theorem skipEmptyWithin_congr (h : q.nodes = p.nodes) (j : Nat) (a : Option (Fin n)) :
    q.skipEmptyWithin j a = p.skipEmptyWithin j a := by
  obtain ⟨nodes, lists⟩ := p
  obtain rfl := h
  induction j generalizing a with
  | zero => cases a <;> rfl
  | succ j ih =>
      cases a with
      | none => rfl
      | some x =>
          rw [skipEmptyWithin, skipEmptyWithin, ih]
          rfl

theorem sumLengths_congr (h : q.nodes = p.nodes) (j : Nat) (a : Option (Fin n)) (total : Nat) :
    q.sumLengths j a total = p.sumLengths j a total := by
  obtain ⟨nodes, lists⟩ := p
  obtain rfl := h
  induction j generalizing a total with
  | zero => cases a <;> rfl
  | succ j ih =>
      cases a with
      | none => rfl
      | some x =>
          rw [sumLengths, sumLengths]
          exact bind_congr fun total => ih _ total

end Pool

namespace ByteCursor

variable {p q : Pool Span n m}

theorem advanceLeft_congr (h : q.nodes = p.nodes) (c : ByteCursor n m) (left : Nat) :
    c.advanceLeft q left = c.advanceLeft p left := by
  have hlen : ∀ x, q.len x = p.len x := fun x => by rw [Pool.len, Pool.len, Pool.data, h]; rfl
  have hnext : ∀ x, q.next x = p.next x := fun x => by rw [Pool.next, h]; rfl
  have harrive : ∀ l a, arrive q l a = arrive p l a := fun l a => by
    rw [arrive, arrive, Pool.skipEmpty, Pool.skipEmpty, Pool.skipEmptyWithin_congr h]
  -- the recursion of the definition
  induction c, left using advanceLeft.induct (p := p) with
  | case1 c => rw [advanceLeft, advanceLeft, if_pos rfl, if_pos rfl]
  | case2 c left h0 hx => rw [advanceLeft_of_none hx, advanceLeft_of_none hx]
  | case3 c left h0 x hx hlt =>
      rw [advanceLeft_of_some hx h0, advanceLeft_of_some hx h0, hlen, if_pos hlt, if_pos hlt]
  | case4 c left h0 x hx hle hlt =>
      rw [advanceLeft_of_some hx h0, advanceLeft_of_some hx h0, hlen, if_neg hle, if_neg hle,
        if_pos hlt, if_pos hlt]
  | case5 c left h0 x hx hle hlt ih =>
      rw [advanceLeft_of_some hx h0, advanceLeft_of_some hx h0, hlen, if_neg hle, if_neg hle,
        if_neg hlt, if_neg hlt, hnext, harrive, ih]

/-- A cursor moves the same way in pools with the same nodes. -/
theorem advance_congr (h : q.nodes = p.nodes) (c : ByteCursor n m) (count : Nat) :
    c.advance q count = c.advance p count := by
  rw [advance, advance, advanceLeft_congr h]

theorem remaining_congr (h : q.nodes = p.nodes) (c : ByteCursor n m) :
    c.remaining q = c.remaining p := by
  rw [remaining, remaining, Pool.sumLengths_congr h]

end ByteCursor

/-! ### A list alone -/

namespace Pool

/-- The pool with all lists but one emptied. -/
def alone (p : Pool α n m) (l : Fin m) : Pool α n m :=
  { p with lists := Vector.ofFn fun k => if k = l then p.ends l else {} }

section Lemmas

variable (p : Pool α n m) (l k : Fin m) (x : Fin n)

@[simp] theorem next_alone : (p.alone l).next x = p.next x := rfl

@[simp] theorem prev_alone : (p.alone l).prev x = p.prev x := rfl

@[simp] theorem ends_alone : (p.alone l).ends k = if k = l then p.ends l else {} := by
  simp [ends, alone]

@[simp] theorem first_alone : (p.alone l).first k = if k = l then p.first l else none := by
  rw [first, ends_alone]; split <;> rfl

@[simp] theorem last_alone : (p.alone l).last k = if k = l then p.last l else none := by
  rw [last, ends_alone]; split <;> rfl

end Lemmas

variable {p : Pool α n m} {l : Fin m} {row : Row n}

/-- **A linked list is well-formed alone**, whatever the other lists are. -/
theorem Linked.represents_alone (h : p.Linked l none row none) (hrow : row.Nodup) :
    (p.alone l).Represents (Rows.set (fun _ => []) l row) := by
  refine ⟨fun j => ?_, fun j => ?_, fun {i j x} hi hj => ?_⟩
  · by_cases hj : j = l
    · subst hj
      rw [Rows.set_self]
      exact h.congr (by simp) (by simp) (by simp) (by simp)
    · rw [Rows.set_of_ne hj]
      exact ⟨by simp [hj], by simp [hj]⟩
  · by_cases hj : j = l
    · rwa [hj, Rows.set_self]
    · rw [Rows.set_of_ne hj]
      exact List.nodup_nil
  · have hlist : ∀ {j}, x ∈ Rows.set (fun _ => []) l row j → j = l := by
      intro j hx
      by_contra hj
      rw [Rows.set_of_ne hj] at hx
      exact List.not_mem_nil hx
    rw [hlist hi, hlist hj]

theorem Linked.members_alone (h : p.Linked l none row none) (hrow : row.Nodup) :
    (p.alone l).members l = p.members l := by
  rw [(h.represents_alone hrow).members_eq, Rows.set_self, h.members_eq hrow]

end Pool

namespace ByteCursor

variable {p : Pool Span n m} {c : ByteCursor n m} {row : Row n}

theorem valid_alone (h : p.Linked c.list none row none) (hrow : row.Nodup) :
    c.Valid (p.alone c.list) ↔ c.Valid p := by
  rw [Valid, Valid, h.members_alone hrow]
  rfl

theorem ahead_alone (h : p.Linked c.list none row none) (hrow : row.Nodup) :
    c.ahead (p.alone c.list) = c.ahead p := by
  rw [ahead, ahead, h.members_alone hrow]
  rfl

theorem remaining_alone (p : Pool Span n m) (l : Fin m) (c : ByteCursor n m) :
    c.remaining (p.alone l) = c.remaining p := by
  have hnodes : (p.alone l).nodes = p.nodes := rfl
  exact remaining_congr hnodes c

theorem advance_alone (p : Pool Span n m) (l : Fin m) (c : ByteCursor n m) (count : Nat) :
    c.advance (p.alone l) count = c.advance p count := by
  have hnodes : (p.alone l).nodes = p.nodes := rfl
  exact advance_congr hnodes c count

end ByteCursor

/-! ### In a session -/

/-- **What remains is counted by way of whole spans.**  A valid cursor stands in a list that is linked
along a row without repetition, of spans of any sizes.

* The number of bytes ahead is told if it is a size together with the offset of the cursor; otherwise
  the count ends with a fault, even if the number alone is a size.
* A copy of the cursor that is moved as far as a size can tell is told this number, if it is a size. -/
theorem remaining_counts_whole_spans {s : BufferSession n m k} {i j : Fin k} {c : ByteCursor n m}
    {row : Row n} (h : s.pool.Linked c.list none row none) (hrow : row.Nodup)
    (hi : s.slots.get i = some c) (hc : c.Valid s.pool) :
    s.step (.through i .remaining) =
        (if c.offset + (c.ahead s.pool).length < sizeLimit then
          .ok (s.answer (.size (c.ahead s.pool).length))
        else .error .addOverflow) ∧
      ∃ c', Session.run BufferSession.step s
          [.through i (.copy j), .through j (.advance (sizeLimit - 1))] =
        ([(s.put j c).answer .done,
          (s.put j c').answer (.size (min (sizeLimit - 1) (c.ahead s.pool).length))],
          .ok (s.put j c')) := by
  have hp := (h.represents_alone hrow).wellFormed
  have hv := (c.valid_alone h hrow).2 hc
  constructor
  · have hcount := c.remaining_eq_addSize hp hv
    rw [ByteCursor.remaining_alone, c.ahead_alone h hrow] at hcount
    rw [BufferSession.step, hi]
    simp only [BufferSession.stepThrough, hcount, addSize]
    split
    · exact congrArg (fun r => Except.ok (s.answer (.size r))) (Nat.add_sub_cancel_left ..)
    · rfl
  · obtain ⟨c', hmove, -⟩ := c.advance_eq hp hv (sizeLimit - 1)
    rw [ByteCursor.advance_alone, c.ahead_alone h hrow] at hmove
    have hcopy : s.step (.through i (.copy j)) = .ok ((s.put j c).answer .done) := by
      rw [BufferSession.step, hi]
      rfl
    have hadvance : (s.put j c).step (.through j (.advance (sizeLimit - 1))) =
        .ok ((s.put j c').answer (.size (min (sizeLimit - 1) (c.ahead s.pool).length))) := by
      simp only [BufferSession.step, BufferSession.slots_put_self, BufferSession.stepThrough,
        BufferSession.pool_put, hmove, bind, Except.bind, pure, Except.pure, BufferSession.put_put]
    exact ⟨c', Session.run_cons_of_run _ hcopy (Session.run_cons_of_run _ hadvance rfl)⟩

/-- The spans of a list are together as long as a size can tell, so that what is left behind the first
two bytes is counted.  The other list has an end that it does not share with its node. -/
theorem remaining_counts_whole_spans_at_limit :
    let pool : Pool Span 4 2 :=
      ⟨#v[⟨⟨some 1, none⟩, ⟨.inMemory 0, 18446744073709551612, by decide⟩⟩,
          ⟨⟨some 2, some 0⟩, .empty⟩, ⟨⟨none, some 1⟩, ⟨.inMemory 4, 3, by decide⟩⟩,
          ⟨⟨some 0, none⟩, .empty⟩],
        #v[⟨some 0, some 2⟩, ⟨some 3, none⟩]⟩
    let c : ByteCursor 4 2 := ⟨⟨0, some 0⟩, 2⟩
    let s : BufferSession 4 2 2 := ⟨pool, .pattern 7 0 1, #v[some c, none]⟩
    let row : Row 4 := [0, 1, 2]
    pool.Linked 0 none row none ∧ row.Nodup ∧ ¬ pool.WellFormed ∧ c.Valid pool ∧
      (c.ahead pool).length = 18446744073709551613 ∧
      s.step (.through 0 .remaining) = .ok (s.answer (.size 18446744073709551613)) ∧
      ∃ outcomes c', Session.run BufferSession.step s
          [.through 0 (.copy 1), .through 1 (.advance 18446744073709551615)] =
        (outcomes, .ok (s.put 1 c')) ∧
        outcomes.map Outcome.reply = [.done, .size 18446744073709551613] := by
  intro pool c s row
  have h : pool.Linked 0 none row none := by decide
  have hrow : row.Nodup := by decide
  have hc : c.Valid pool := by decide
  have hlen : (c.ahead pool).length = 18446744073709551613 := by
    have hs : Rows.set (fun _ => []) 0 row c.list = [] ++ 0 :: [1, 2] := Rows.set_self ..
    have hahead : c.ahead (pool.alone 0) = c.ahead pool := c.ahead_alone h hrow
    rw [← hahead, ByteCursor.length_ahead_eq (h.represents_alone hrow) hs rfl]
    rfl
  have hfit : c.offset + 18446744073709551613 < sizeLimit := by
    change 2 + 18446744073709551613 < sizeLimit
    decide
  have hmin : min (sizeLimit - 1) 18446744073709551613 = 18446744073709551613 := by decide
  obtain ⟨hcount, c', hmove⟩ := remaining_counts_whole_spans (s := s) (i := 0) (j := 1) (c := c)
    h hrow rfl hc
  rw [hlen, if_pos hfit] at hcount
  rw [hlen, hmin] at hmove
  exact ⟨h, hrow, by decide, hc, hlen, hcount, _, c', hmove, rfl⟩

/-- Behind the first byte of two spans there are as many bytes as a size can tell.  The cursor can be
moved past all of them at once, but their number is not told: together with the first byte the two
spans have one byte more. -/
theorem remaining_overflows_early :
    let pool : Pool Span 2 1 :=
      ⟨#v[⟨⟨some 1, none⟩, ⟨.inMemory 0, 18446744073709551615, by decide⟩⟩,
          ⟨⟨none, some 0⟩, ⟨.inMemory 0, 1, by decide⟩⟩],
        #v[⟨some 0, some 1⟩]⟩
    let c : ByteCursor 2 1 := ⟨⟨0, some 0⟩, 1⟩
    pool.WellFormed ∧ c.Valid pool ∧ (c.ahead pool).length = 18446744073709551615 ∧
      c.advance pool 18446744073709551615 = .ok (⟨⟨0, none⟩, 0⟩, 18446744073709551615) ∧
      c.remaining pool = .error .addOverflow := by
  intro pool c
  have h : pool.WellFormed := by decide
  have hlen : (c.ahead pool).length = 18446744073709551615 := by
    have hs : pool.members c.list = [] ++ 0 :: [1] := by decide
    rw [ByteCursor.length_ahead_eq h hs rfl]
    rfl
  exact ⟨h, by decide, hlen, by decide +kernel, by decide +kernel⟩

end SpanChain
