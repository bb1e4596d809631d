/-
**Going on where two chains meet.**

A chain is appended to another with a cursor or without one.  The cursor may have been anywhere, on
any list, even on a node that is on none; afterwards it stands in front of the first byte that came
from the second chain.  A cursor that walks from the front over the bytes of the first chain comes to
the same place, whether or not there are empty spans where the two chains meet.

Main definitions:

* `SpanChain.Pool.Appended` — one chain has been moved behind another;
* `SpanChain.ByteCursor.AtSeam` — a cursor stands where they meet.

Main results:

* `SpanChain.Pool.WellFormed.appended` — what appending does to the lists;
* `SpanChain.ByteCursor.appendAtSeam_atSeam` — where the cursor is put;
* `SpanChain.BufferSession.run_start_forward`, `SpanChain.BufferSession.run_to_seam` — a walk from the
  front of a list, and when it has come to where two chains meet;
* `SpanChain.append_resumes_at_first_tail_byte` — **the cursor is where a walk over the first chain
  ends**.
-/

import SpanChain.Proofs.Bytes.Forward
import SpanChain.Proofs.Bytes.Join

set_option relaxedAutoImplicit false
set_option autoImplicit false

namespace SpanChain

variable {n m k : Nat} {p q : Pool Span n m} {l tail : Fin m}

/-- All nodes of the list `tail` have been moved behind those of the list `l`. -/
structure Pool.Appended (p : Pool Span n m) (l tail : Fin m) (q : Pool Span n m) : Prop where
  /-- All lists are linked along rows that have no node in common. -/
  wellFormed : q.WellFormed
  members : q.members l = p.members l ++ p.members tail
  empty : q.members tail = []
  /-- All other lists have the nodes that they had. -/
  others : ∀ j, j ≠ l → j ≠ tail → q.members j = p.members j
  /-- Every node describes what it described. -/
  data : ∀ x, q.data x = p.data x
  addresses : q.addresses l = p.addresses l ++ p.addresses tail

theorem Pool.WellFormed.appended (h : p.WellFormed) (hlt : l ≠ tail) :
    p.Appended l tail (p.append l tail) := by
  have hb := h.append hlt
  have hmembers := hb.represents.members_eq
  refine ⟨hb.represents.wellFormed, ?_, ?_, fun j hl ht => ?_, hb.data, ?_⟩
  · rw [hmembers, ByteCursor.seam_cut _ hlt]
  · rw [hmembers, Rows.set_self]
  · rw [hmembers, Rows.set_of_ne ht, Rows.set_of_ne hl]
  · rw [hb.represents.addresses_eq, ByteCursor.seam_cut _ hlt, Pool.rowAddresses_append,
      h.addresses_eq, h.addresses_eq, Pool.rowAddresses_congr fun x _ => hb.data x,
      Pool.rowAddresses_congr fun x _ => hb.data x]

namespace ByteCursor

variable {c' : ByteCursor n m}

/-- The list `tail` of the pool `p` has been moved behind the list `l`, which has given the pool `q`,
and the cursor stands in front of the first byte that came from `tail`. -/
structure AtSeam (p : Pool Span n m) (l tail : Fin m) (q : Pool Span n m) (c' : ByteCursor n m) :
    Prop where
  valid : c'.Valid q
  list : c'.list = l
  /-- What is ahead is what `tail` described. -/
  ahead : c'.ahead q = p.addresses tail

theorem appendAtSeam_atSeam (h : p.WellFormed) (hlt : l ≠ tail) :
    (appendAtSeam p l tail).2.AtSeam p l tail (p.append l tail) :=
  ⟨valid_seam h hlt, rfl, ahead_seam h hlt⟩

/-- A cursor where two chains meet has finished exactly if the second one had no bytes. -/
theorem AtSeam.isActive_eq_false_iff (h : c'.AtSeam p l tail q) (hq : q.WellFormed) :
    c'.isActive = false ↔ p.addresses tail = [] := by
  rw [← h.ahead, h.valid.isActive_eq_false_iff hq]

/-- **Behind the bytes of the first chain a walk from the front is where the two chains meet.** -/
theorem AtSeam.moves (h : c'.AtSeam p l tail q) (hq : p.Appended l tail q) :
    (start q l).Moves q (p.addresses l).length c' := by
  refine ⟨h.valid, h.list, ?_⟩
  rw [ahead_start hq.wellFormed, hq.addresses, List.drop_left, h.ahead]

end ByteCursor

/-! ### In a session -/

namespace BufferSession

variable {s : BufferSession n m k}

/-- With a cursor, appending puts it where the two chains meet, wherever it has been. -/
theorem step_appendAtSeam_some {slot : Fin k} {c : ByteCursor n m}
    (hslot : s.slots.get slot = some c) (hlt : l ≠ tail) :
    s.step (.appendAtSeam l tail (some slot)) =
      .ok ⟨.done,
        (s.setPool (s.pool.append l tail)).put slot (ByteCursor.appendAtSeam s.pool l tail).2,
        [s.pool.appendEvent l tail]⟩ := by
  simp only [step, if_neg hlt, hslot]
  rfl

/-- Without a cursor, appending at the seam is appending. -/
theorem step_appendAtSeam_none (hlt : l ≠ tail) :
    s.step (.appendAtSeam l tail none) =
      .ok ⟨.done, s.setPool (s.pool.append l tail), [s.pool.appendEvent l tail]⟩ := by
  simp only [step, if_neg hlt]

theorem step_append (hlt : l ≠ tail) :
    s.step (.edit (.append l tail)) =
      .ok ⟨.done, s.setPool (s.pool.append l tail), [s.pool.appendEvent l tail]⟩ := by
  have hsound : (ListEdit.append l tail : ListEdit n m).isSound = true := decide_eq_true hlt
  simp only [step, ListEdit.apply, hsound, if_true, ListEdit.effect, editEvents, if_neg hlt,
    withPool, bind, Except.bind, pure, Except.pure]

/-- A walk from the front of a list. -/
theorem run_start_forward (h : s.pool.WellFormed) (slot : Fin k) (l : Fin m) (counts : List Nat) :
    ∃ outcomes, ∃ sizes : List Nat, ∃ c',
      Session.run step s (.start (some slot) l :: forward slot counts) =
          (outcomes, .ok (s.put slot c')) ∧
        outcomes.map Outcome.reply = .done :: sizes.map Reply.size ∧
        sizes.sum = min counts.sum (s.pool.addresses l).length ∧
        (ByteCursor.start s.pool l).Moves s.pool counts.sum c' := by
  obtain ⟨outcomes, sizes, c', hrun, hreplies, hsum, hm⟩ :=
    run_forward h slot (ByteCursor.valid_start h l) counts
  have hstart : s.step (.start (some slot) l) =
      .ok ((s.put slot (ByteCursor.start s.pool l)).answer .done) := rfl
  refine ⟨_, sizes, c', Session.run_cons_of_run step hstart hrun, ?_, ?_, hm⟩
  · rw [List.map_cons, hreplies]
    rfl
  · rw [hsum, ByteCursor.ahead_start h]

/-- **A walk from the front has come to where two chains meet** exactly if it has passed as many bytes
as the first one had. -/
theorem run_to_seam {c' : ByteCursor n m} (hq : p.Appended l tail s.pool)
    (hseam : c'.AtSeam p l tail s.pool) (slot : Fin k) (counts : List Nat) :
    ∃ outcomes, ∃ sizes : List Nat, ∃ c'',
      Session.run step s (.start (some slot) l :: forward slot counts) =
          (outcomes, .ok (s.put slot c'')) ∧
        outcomes.map Outcome.reply = .done :: sizes.map Reply.size ∧
        sizes.sum = min counts.sum (s.pool.addresses l).length ∧
        (c'' = c' ↔ sizes.sum = (p.addresses l).length) := by
  obtain ⟨outcomes, sizes, c'', hrun, hreplies, hsum, hm⟩ :=
    run_start_forward hq.wellFormed slot l counts
  refine ⟨outcomes, sizes, c'', hrun, hreplies, hsum, ?_⟩
  -- the first chain is part of the list, so its bytes are all there
  have hle : (p.addresses l).length ≤ (s.pool.addresses l).length := by
    rw [hq.addresses, List.length_append]
    exact Nat.le_add_right ..
  rw [hm.eq_iff hq.wellFormed (hseam.moves hq), ByteCursor.ahead_start hq.wellFormed,
    Nat.min_eq_left hle, hsum]

end BufferSession

/-- **Appending goes on exactly at the first byte of the second chain.**  With a cursor, which may be
anywhere, or without one, as an edit of its own or not, appending leaves the same pool: the nodes of
the list `tail` stand behind those of the list `l`, and so do the addresses that they describe.  The
cursor ends up valid, on `l`, with what `tail` described ahead, and has finished exactly if these were
no bytes.  A new cursor from the front of `l`, whatever steps forward it makes, has come to the same
place exactly if it has passed as many bytes as `l` had. -/
theorem append_resumes_at_first_tail_byte {s : BufferSession n m k} {slot : Fin k}
    {c : ByteCursor n m} (h : s.pool.WellFormed) (hslot : s.slots.get slot = some c)
    (hlt : l ≠ tail) :
    ∃ q c', s.step (.appendAtSeam l tail (some slot)) =
        .ok ⟨.done, (s.setPool q).put slot c', [s.pool.appendEvent l tail]⟩ ∧
      s.step (.appendAtSeam l tail none) =
        .ok ⟨.done, s.setPool q, [s.pool.appendEvent l tail]⟩ ∧
      s.step (.edit (.append l tail)) =
        .ok ⟨.done, s.setPool q, [s.pool.appendEvent l tail]⟩ ∧
      s.pool.Appended l tail q ∧ c'.AtSeam s.pool l tail q ∧
      (c'.isActive = false ↔ s.pool.addresses tail = []) ∧
      ∀ twin counts, ∃ outcomes, ∃ sizes : List Nat, ∃ c'',
        Session.run BufferSession.step ((s.setPool q).put slot c')
          (.start (some twin) l :: BufferSession.forward twin counts) =
            (outcomes, .ok (((s.setPool q).put slot c').put twin c'')) ∧
        outcomes.map Outcome.reply = .done :: sizes.map Reply.size ∧
        sizes.sum = min counts.sum (q.addresses l).length ∧
        (c'' = c' ↔ sizes.sum = (s.pool.addresses l).length) := by
  have hq := h.appended hlt
  have hseam := ByteCursor.appendAtSeam_atSeam h hlt
  exact ⟨s.pool.append l tail, (ByteCursor.appendAtSeam s.pool l tail).2,
    BufferSession.step_appendAtSeam_some hslot hlt, BufferSession.step_appendAtSeam_none hlt,
    BufferSession.step_append hlt, hq, hseam, hseam.isActive_eq_false_iff hq.wellFormed,
    BufferSession.run_to_seam hq hseam⟩

/-- A cursor that is bound to a third list and stands on a node that is on none, with an offset beyond
its span.  There are empty spans on both sides of where the chains meet, and the walk from the front
comes there in two steps. -/
theorem append_resumes_at_first_tail_byte_stale_cursor :
    let pool : Pool Span 5 3 :=
      ⟨#v[⟨⟨some 1, none⟩, ⟨.inMemory 0, 3, by decide⟩⟩,
          ⟨⟨none, some 0⟩, .empty⟩,
          ⟨⟨some 3, none⟩, .empty⟩,
          ⟨⟨none, some 2⟩, ⟨.inMemory 5, 2, by decide⟩⟩,
          ⟨⟨some 4, some 1⟩, ⟨.inMemory 0, 1, by decide⟩⟩],
        #v[⟨some 0, some 1⟩, ⟨some 2, some 3⟩, ⟨none, none⟩]⟩
    let c : ByteCursor 5 3 := ⟨⟨2, some 4⟩, 9⟩
    let s : BufferSession 5 3 2 := ⟨pool, .pattern 8 0 1, #v[some c, none]⟩
    pool.WellFormed ∧ ¬ c.Valid pool ∧
      ∃ q c', s.step (.appendAtSeam 0 1 (some 0)) =
          .ok ⟨.done, (s.setPool q).put 0 c', [pool.appendEvent 0 1]⟩ ∧
        q.members 0 = [0, 1, 2, 3] ∧ q.members 1 = [] ∧
        c'.ahead q = [.inMemory 5, .inMemory 6] ∧ c'.isActive = true ∧
        ∃ outcomes,
          Session.run BufferSession.step ((s.setPool q).put 0 c')
            [.start (some 1) 0, .through 1 (.advance 2), .through 1 (.advance 1)] =
              (outcomes, .ok (((s.setPool q).put 0 c').put 1 c')) := by
  intro pool c s
  have h : pool.WellFormed := by decide
  have hslot : s.slots.get 0 = some c := rfl
  have hlt : (0 : Fin 3) ≠ 1 := by decide
  obtain ⟨q, c', hstep, -, -, hq, hseam, hactive, hwalk⟩ :=
    append_resumes_at_first_tail_byte h hslot hlt
  have htail : pool.addresses 1 = [.inMemory 5, .inMemory 6] := by decide
  obtain ⟨outcomes, sizes, c'', hrun, -, hsum, hsame⟩ := hwalk 1 [2, 1]
  have hpassed : sizes.sum = (pool.addresses 0).length := by
    rw [hsum, hq.addresses]
    decide
  obtain rfl := hsame.2 hpassed
  refine ⟨h, by decide, q, c'', hstep, hq.members.trans (by decide), hq.empty,
    hseam.ahead.trans htail, ?_, outcomes, hrun⟩
  rw [← Bool.not_eq_false, hactive]
  decide

end SpanChain
