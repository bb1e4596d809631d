/-
**One cursor for each place.**

A place between the bytes of a list has one cursor: it has finished or stands in front of a byte, and
the number of bytes up to the end tells which place it is.  Every operation that moves a cursor past
bytes comes to the cursor of the place behind them.  So it is the number of bytes that counts, and not
how they were passed: stepped over, read, written or copied, one by one or at once, from the cursor or
to it, whatever cursors were on the other side.

Main definitions:

* `SpanChain.BufferSession.Step.IsMotion` — the steps that move cursors past bytes;
* `SpanChain.BufferSession.told` — how many bytes the answers say that a cursor has passed.

Main results:

* `SpanChain.ByteCursor.Valid.samePlace_eq` — valid cursors of one list compare as the numbers of
  bytes ahead of them;
* `SpanChain.ByteCursor.moves_of_copyTo_src`, `SpanChain.ByteCursor.moves_of_copyTo_dst` and their like
  — a cursor comes as far as it tells;
* `SpanChain.BufferSession.run_moves` — so does the cursor in a slot in a run;
* `SpanChain.BufferSession.run_motions` — a run of motions of valid cursors succeeds;
* `SpanChain.places_have_one_cursor` — **equal cursors that have passed equally many bytes are equal**.
-/

import SpanChain.Proofs.Bytes.Run

set_option relaxedAutoImplicit false
set_option autoImplicit false

namespace SpanChain

variable {n m k : Nat}

/-! ### A cursor comes as far as it tells -/

namespace ByteCursor

variable {p : Pool Span n m} {mem mem' : Memory} {c c' d d' : ByteCursor n m} {i j left count : Nat}

/-- **Valid cursors of one list compare as the numbers of bytes ahead.** -/
theorem Valid.samePlace_eq (h : p.WellFormed) (hc : c.Valid p) (hd : d.Valid p)
    (hlist : c.list = d.list) :
    c.samePlace d = decide ((c.ahead p).length = (d.ahead p).length) := by
  by_cases hlen : (c.ahead p).length = (d.ahead p).length
  · obtain rfl := hc.eq_of_length_ahead h hd hlist hlen
    simp [samePlace]
  · rw [decide_eq_false hlen]
    refine Bool.eq_false_iff.2 fun hsame => hlen ?_
    -- the same node and the same offset, on one list
    obtain ⟨⟨l, a⟩, i⟩ := c
    obtain ⟨⟨l', a'⟩, i'⟩ := d
    obtain rfl : l = l' := hlist
    obtain ⟨rfl, rfl⟩ : a = a' ∧ i = i' := by simpa [samePlace, node] using hsame
    rfl

theorem moves_of_advance (h : p.WellFormed) (hc : c.Valid p) (hq : c.advance p j = .ok (c', count)) :
    c.Moves p count c' := by
  obtain ⟨c₁, hc₁, hm⟩ := c.advance_eq h hc j
  simp only [hc₁, Except.ok.injEq, Prod.mk.injEq] at hq
  obtain ⟨rfl, rfl⟩ := hq
  exact hm.truncate

theorem moves_of_readByte {b : Option UInt8} (h : p.WellFormed) (hc : c.Valid p)
    (hq : c.readByte p mem = .ok (b, c')) : c.Moves p b.toList.length c' := by
  cases hahead : c.ahead p with
  | nil =>
      simp only [readByte_of_nil mem h hc hahead, Except.ok.injEq, Prod.mk.injEq] at hq
      obtain ⟨rfl, rfl⟩ := hq
      exact hc.moves_zero
  | cons a as =>
      obtain ⟨c₁, hc₁, hm⟩ := readByte_of_cons mem h hc hahead
      simp only [hc₁, Except.ok.injEq, Prod.mk.injEq] at hq
      obtain ⟨rfl, rfl⟩ := hq
      exact hm

theorem moves_of_copyInto {dst bytes : List UInt8} (h : p.WellFormed) (hc : c.Valid p)
    (hq : c.copyInto p mem dst = .ok (count, bytes, c')) : c.Moves p count c' := by
  obtain ⟨c₁, hc₁, hm⟩ := c.copyInto_eq mem h hc dst
  simp only [hc₁, Except.ok.injEq, Prod.mk.injEq] at hq
  obtain ⟨rfl, -, rfl⟩ := hq
  exact hm.truncate

theorem moves_of_writeByte {b : UInt8} (h : p.WellFormed) (hc : c.Valid p)
    (hq : c.writeByte p mem b = .ok (count, mem', c')) : c.Moves p count c' := by
  cases hahead : c.ahead p with
  | nil =>
      simp only [writeByte_of_nil mem h hc hahead, Except.ok.injEq, Prod.mk.injEq] at hq
      obtain ⟨rfl, -, rfl⟩ := hq
      exact hc.moves_zero
  | cons a as =>
      obtain ⟨c₁, hc₁, hm⟩ := writeByte_of_cons mem h hc hahead b
      simp only [hc₁, Except.ok.injEq, Prod.mk.injEq] at hq
      obtain ⟨rfl, -, rfl⟩ := hq
      exact hm

/-- A write of any source comes as far as it finds room. -/
theorem moves_of_fillLeft {src : Source} (h : p.WellFormed) (hc : c.Valid p)
    (hq : fillLeft p src mem c i j = .ok (left, mem', c')) : left ≤ j ∧ c.Moves p (j - left) c' := by
  -- every piece has a byte at least, so what is left to be written gets less
  induction j using Nat.strong_induction_on generalizing c mem i with
  | h j ih =>
      by_cases h0 : j = 0
      · subst h0
        rw [fillLeft, if_pos rfl] at hq
        simp only [Except.ok.injEq, Prod.mk.injEq] at hq
        obtain ⟨rfl, -, rfl⟩ := hq
        exact ⟨le_rfl, hc.moves_zero⟩
      · obtain ⟨r, hr, -, hnil⟩ := rest_eq h hc
        by_cases hlen : r.len = 0
        · simp only [fillLeft_of_end mem h hc (hnil.1 hlen), Except.ok.injEq, Prod.mk.injEq] at hq
          obtain ⟨rfl, -, rfl⟩ := hq
          exact ⟨le_rfl, by rw [Nat.sub_self]; exact hc.moves_zero⟩
        · obtain ⟨c₁, hm₁, hstep⟩ := fillLeft_of_rest mem h hc hr hlen h0 src i
          rw [hstep] at hq
          obtain ⟨hle, hm⟩ := ih (j - min r.len j) (by omega) hm₁.valid hq
          have hsum : j - left = min r.len j + (j - min r.len j - left) := by omega
          exact ⟨by omega, hsum ▸ hm₁.trans hm⟩

theorem moves_of_fill {src : Source} (h : p.WellFormed) (hc : c.Valid p)
    (hq : fill p src mem c j = .ok (count, mem', c')) : c.Moves p count c' := by
  obtain ⟨⟨left, mem₁, c₁⟩, hfill, heq⟩ := bind_eq_ok.1 hq
  simp only [pure, Except.pure, Except.ok.injEq, Prod.mk.injEq] at heq
  obtain ⟨rfl, -, rfl⟩ := heq
  exact (moves_of_fillLeft h hc hfill).2

/-- No more is written than was to be written. -/
theorem le_of_fill {src : Source} (hq : fill p src mem c j = .ok (count, mem', c')) : count ≤ j := by
  obtain ⟨⟨left, mem₁, c₁⟩, -, heq⟩ := bind_eq_ok.1 hq
  obtain ⟨rfl, -⟩ := Prod.mk.inj (Except.ok.inj heq)
  exact Nat.sub_le ..

/-! ### Copies with any cursor on the other side -/

/-- One piece of a copy: from what is left of the current span of the source, wherever the source
stands, as far as there is room for it. -/
theorem copyLeft_cases (hq : copyLeft p mem c d j = .ok (left, mem', c', d')) :
    left = j ∧ c' = c ∧ d' = d ∨
      ∃ r mem₁ c₁ d₁ count moved, j ≠ 0 ∧ c.rest p = .ok r ∧ r.len ≠ 0 ∧ count ≤ min r.len j ∧
        fill p (.region r.base) mem d (min r.len j) = .ok (count, mem₁, d₁) ∧
        c.advance p count = .ok (c₁, moved) ∧
        (left = j - count ∧ c' = c₁ ∧ d' = d₁ ∨
          count = min r.len j ∧
            copyLeft p mem₁ c₁ d₁ (j - count) = .ok (left, mem', c', d')) := by
  rw [copyLeft] at hq
  split at hq
  · next h0 =>
      simp only [Except.ok.injEq, Prod.mk.injEq] at hq
      obtain ⟨rfl, -, rfl, rfl⟩ := hq
      exact .inl ⟨h0.symm, rfl, rfl⟩
  · next h0 =>
      split at hq
      · contradiction
      · next r hr =>
          split at hq
          · simp only [Except.ok.injEq, Prod.mk.injEq] at hq
            obtain ⟨rfl, -, rfl, rfl⟩ := hq
            exact .inl ⟨rfl, rfl, rfl⟩
          · next hlen =>
              split at hq
              · contradiction
              · next count mem₁ d₁ hfill =>
                  have hle := le_of_fill hfill
                  split at hq
                  · contradiction
                  · next c₁ moved hadvance =>
                      refine .inr
                        ⟨r, mem₁, c₁, d₁, count, moved, h0, hr, hlen, hle, hfill, hadvance, ?_⟩
                      split at hq
                      · simp only [Except.ok.injEq, Prod.mk.injEq] at hq
                        obtain ⟨rfl, -, rfl, rfl⟩ := hq
                        exact .inl ⟨rfl, rfl, rfl⟩
                      · next hshort =>
                          obtain rfl : count = min r.len j := by omega
                          exact .inr ⟨rfl, hq⟩

/-- A piece of what was asked for is passed, and then the rest but for what is left. -/
theorem Moves.of_rest {c₁ : ByteCursor n m} (hm : c.Moves p count c₁) (hle : count ≤ j)
    (hrest : left ≤ j - count ∧ c₁.Moves p (j - count - left) c') :
    left ≤ j ∧ c.Moves p (j - left) c' := by
  obtain ⟨hleft, hm'⟩ := hrest
  have hsum : j - left = count + (j - count - left) := by omega
  exact ⟨by omega, hsum ▸ hm.trans hm'⟩

/-- The source of a copy comes as far as was copied, whatever the target is. -/
theorem moves_of_copyLeft_src (h : p.WellFormed) (hc : c.Valid p)
    (hq : copyLeft p mem c d j = .ok (left, mem', c', d')) : left ≤ j ∧ c.Moves p (j - left) c' := by
  induction j using Nat.strong_induction_on generalizing c d mem with
  | h j ih =>
      rcases copyLeft_cases hq with ⟨rfl, rfl, rfl⟩ | ⟨r, mem₁, c₁, d₁, count, moved, h0, hr, hlen,
        hle, hfill, hadvance, hlast⟩
      · exact ⟨le_rfl, by rw [Nat.sub_self]; exact hc.moves_zero⟩
      · -- what was copied is part of the current span, so the source can pass it
        have hm₁ : c.Moves p count c₁ := by
          obtain ⟨r', hr', hstart, -⟩ := rest_eq h hc
          obtain rfl := Except.ok.inj (hr.symm.trans hr')
          have hahead := hstart.length_le
          rw [Span.length_addresses] at hahead
          obtain ⟨c₂, hc₂, hm₂⟩ := c.advance_eq h hc count
          obtain ⟨rfl, -⟩ := Prod.mk.inj (Except.ok.inj (hc₂.symm.trans hadvance))
          exact hm₂
        rcases hlast with ⟨rfl, rfl, rfl⟩ | ⟨hcount, hrest⟩
        · exact ⟨Nat.sub_le .., by rwa [Nat.sub_sub_self (by omega)]⟩
        · exact hm₁.of_rest (by omega) (ih (j - count) (by omega) hm₁.valid hrest)

/-- The target of a copy comes as far as was copied, whatever the source is. -/
theorem moves_of_copyLeft_dst (h : p.WellFormed) (hd : d.Valid p)
    (hq : copyLeft p mem c d j = .ok (left, mem', c', d')) : left ≤ j ∧ d.Moves p (j - left) d' := by
  induction j using Nat.strong_induction_on generalizing c d mem with
  | h j ih =>
      rcases copyLeft_cases hq with ⟨rfl, rfl, rfl⟩ | ⟨r, mem₁, c₁, d₁, count, moved, h0, hr, hlen,
        hle, hfill, hadvance, hlast⟩
      · exact ⟨le_rfl, by rw [Nat.sub_self]; exact hd.moves_zero⟩
      · have hm₁ := moves_of_fill h hd hfill
        rcases hlast with ⟨rfl, rfl, rfl⟩ | ⟨hcount, hrest⟩
        · exact ⟨Nat.sub_le .., by rwa [Nat.sub_sub_self (by omega)]⟩
        · exact hm₁.of_rest (by omega) (ih (j - count) (by omega) hm₁.valid hrest)

theorem moves_of_copyTo_src (h : p.WellFormed) (hc : c.Valid p)
    (hq : copyTo p mem c d j = .ok (count, mem', c', d')) : c.Moves p count c' := by
  obtain ⟨⟨left, mem₁, c₁, d₁⟩, hcopy, heq⟩ := bind_eq_ok.1 hq
  simp only [pure, Except.pure, Except.ok.injEq, Prod.mk.injEq] at heq
  obtain ⟨rfl, -, rfl, -⟩ := heq
  exact (moves_of_copyLeft_src h hc hcopy).2

theorem moves_of_copyTo_dst (h : p.WellFormed) (hd : d.Valid p)
    (hq : copyTo p mem c d j = .ok (count, mem', c', d')) : d.Moves p count d' := by
  obtain ⟨⟨left, mem₁, c₁, d₁⟩, hcopy, heq⟩ := bind_eq_ok.1 hq
  simp only [pure, Except.pure, Except.ok.injEq, Prod.mk.injEq] at heq
  obtain ⟨rfl, -, -, rfl⟩ := heq
  exact (moves_of_copyLeft_dst h hd hcopy).2

end ByteCursor

/-! ### A cursor in a slot comes as far as it tells -/

/-- The number of bytes that an answer tells. -/
def Reply.moved {α : Type} : Reply α n → Nat
  | .size count | .wrote count _ | .read count _ => count
  | .byte b => b.toList.length
  | _ => 0

namespace BufferSession

/-- A step that moves a cursor, or two of them, past bytes. -/
def CursorStep.IsMotion : CursorStep n m k → Prop
  | .advance _ | .readByte | .copyInto _ | .writeByte _ | .write _ | .copyTo _ _ => True
  | _ => False

/-- A motion of the cursor in a slot, whichever this is. -/
def Step.IsMotion : Step n m k → Prop
  | .through _ t => t.IsMotion
  | _ => False

instance : DecidablePred (CursorStep.IsMotion : CursorStep n m k → Prop)
  | .advance _ | .readByte | .copyInto _ | .writeByte _ | .write _ | .copyTo _ _ =>
    inferInstanceAs (Decidable True)
  | .isActive | .node | .offset | .finish | .rest | .remaining | .text | .isBoundTo _ | .splitAt _ _
  | .joinBack | .copy _ | .samePlace _ => inferInstanceAs (Decidable False)

instance : DecidablePred (Step.IsMotion : Step n m k → Prop)
  | .through _ t => inferInstanceAs (Decidable t.IsMotion)
  | .edit _ | .query _ | .pushRange _ _ _ | .capacity _ | .chainText _ | .spans _ _ | .build _ _ _ _
  | .renew _ _ | .setSpan _ _ | .described _ | .nodeText _ | .start _ _ | .appendAtSeam _ _ _
  | .senseless => inferInstanceAs (Decidable False)

/-- How many bytes the answer to a step says that the cursor in a slot has passed: the cursor may be
the one that the step is made through, or the target of a copy. -/
def Step.told (slot : Fin k) (r : Reply Span n) : Step n m k → Nat
  | .through i t => if i = slot ∨ t.copiesTo? = some slot then r.moved else 0
  | _ => 0

/-- How many bytes the answers to a row of steps say that the cursor in a slot has passed. -/
def told (slot : Fin k) (steps : List (Step n m k))
    (outcomes : List (Outcome Span n (BufferSession n m k))) : Nat :=
  (List.zipWith (fun t o => t.told slot o.reply) steps outcomes).sum

/-- The pool is the same, and the cursor that was in the slot has passed so many bytes. -/
structure Moved (s s' : BufferSession n m k) (slot : Fin k) (c : ByteCursor n m) (count : Nat)
    (c' : ByteCursor n m) : Prop where
  pool : s'.pool = s.pool
  slot : s'.slots.get slot = some c'
  moves : c.Moves s.pool count c'

variable {s s' : BufferSession n m k} {slot i : Fin k} {c e e' : ByteCursor n m} {count : Nat}
  {o : Outcome Span n (BufferSession n m k)}

theorem told_of_single {t : CursorStep n m k} (ht : t.copiesTo? = none) (r : Reply Span n) :
    (Step.through i t).told slot r = if i = slot then r.moved else 0 := by
  simp [Step.told, ht]

theorem told_copyTo (j : Fin k) (total : Nat) (r : Reply Span n) :
    (Step.through (n := n) (m := m) i (.copyTo j total)).told slot r =
      if i = slot ∨ j = slot then r.moved else 0 := by
  simp [Step.told, CursorStep.copiesTo?]

/-- A step that makes no sense tells of no bytes. -/
theorem told_invalid (t : Step n m k) : t.told slot .invalid = 0 := by
  cases t with
  | through i t => exact ite_self 0
  | _ => rfl

/-- Where nothing happens, the cursor has passed no bytes. -/
theorem moved_zero (hc : s.slots.get slot = some c) (hv : c.Valid s.pool) : s.Moved s slot c 0 c :=
  ⟨rfl, hc, hv.moves_zero⟩

/-- A cursor that has passed bytes is put back into its slot; those in other slots stay where they
are. -/
theorem exists_moved_put (mem : Memory) (hc : s.slots.get slot = some c) (hv : c.Valid s.pool)
    (he : s.slots.get i = some e) (hm : e.Valid s.pool → e.Moves s.pool count e') :
    ∃ c', s.Moved ((s.setMemory mem).put i e') slot c (if i = slot then count else 0) c' := by
  by_cases hi : i = slot
  · subst hi
    obtain rfl := Option.some.inj (he.symm.trans hc)
    rw [if_pos rfl]
    exact ⟨e', rfl, slots_put_self, hm hv⟩
  · rw [if_neg hi]
    exact ⟨c, rfl, (slots_put_of_ne (Ne.symm hi)).trans hc, hv.moves_zero⟩

/-- Both sides of a copy come as far as it tells, each if it is valid. -/
theorem exists_moved_copyTo {j : Fin k} {mem : Memory} {d d' : ByteCursor n m} {total : Nat}
    (h : s.pool.WellFormed) (hc : s.slots.get slot = some c) (hv : c.Valid s.pool)
    (he : s.slots.get i = some e) (hd : s.slots.get j = some d)
    (hcopy : e.copyTo s.pool s.memory d total = .ok (count, mem, e', d')) :
    ∃ c', s.Moved (((s.setMemory mem).put i e').put j d') slot c
      (if i = slot ∨ j = slot then count else 0) c' := by
  by_cases hj : j = slot
  · subst hj
    obtain rfl := Option.some.inj (hd.symm.trans hc)
    rw [if_pos (.inr rfl)]
    exact ⟨d', rfl, slots_put_self, ByteCursor.moves_of_copyTo_dst h hv hcopy⟩
  · have hsrc : e.Valid s.pool → e.Moves s.pool count e' := fun hve =>
      ByteCursor.moves_of_copyTo_src h hve hcopy
    obtain ⟨c', hm⟩ := exists_moved_put mem hc hv he hsrc
    have hcond : (i = slot ∨ j = slot) ↔ i = slot := by simp [hj]
    rw [if_congr hcond rfl rfl]
    exact ⟨c', rfl, (slots_put_of_ne (Ne.symm hj)).trans hm.slot, hm.moves⟩

/-- **A motion moves a valid cursor as far as its answer tells**, and leaves the pool alone. -/
theorem exists_moved_stepThrough (h : s.pool.WellFormed) (hc : s.slots.get slot = some c)
    (hv : c.Valid s.pool) (he : s.slots.get i = some e) {t : CursorStep n m k} (ht : t.IsMotion)
    (ho : s.stepThrough i e t = .ok o) :
    ∃ c', s.Moved o.state slot c ((Step.through i t).told slot o.reply) c' := by
  cases t with
  | advance count =>
      obtain ⟨⟨e', moved⟩, hq, heq⟩ := bind_eq_ok.1 ho
      obtain rfl := Except.ok.inj heq
      rw [told_of_single rfl]
      exact exists_moved_put s.memory hc hv he fun hve => ByteCursor.moves_of_advance h hve hq
  | readByte =>
      obtain ⟨⟨b, e'⟩, hq, heq⟩ := bind_eq_ok.1 ho
      obtain rfl := Except.ok.inj heq
      rw [told_of_single rfl]
      exact exists_moved_put s.memory hc hv he fun hve => ByteCursor.moves_of_readByte h hve hq
  | copyInto dst =>
      obtain ⟨⟨count, bytes, e'⟩, hq, heq⟩ := bind_eq_ok.1 ho
      obtain rfl := Except.ok.inj heq
      rw [told_of_single rfl]
      exact exists_moved_put s.memory hc hv he fun hve => ByteCursor.moves_of_copyInto h hve hq
  | writeByte b =>
      obtain ⟨⟨count, mem, e'⟩, hq, heq⟩ := bind_eq_ok.1 ho
      obtain rfl := Except.ok.inj heq
      rw [told_of_single rfl]
      exact exists_moved_put mem hc hv he fun hve => ByteCursor.moves_of_writeByte h hve hq
  | write row =>
      obtain ⟨⟨count, mem, e'⟩, hq, heq⟩ := bind_eq_ok.1 ho
      obtain rfl := Except.ok.inj heq
      rw [told_of_single rfl]
      exact exists_moved_put mem hc hv he fun hve => ByteCursor.moves_of_fill h hve hq
  | copyTo j total =>
      simp only [stepThrough] at ho
      split at ho
      · next d hd =>
          split at ho
          · obtain rfl := Except.ok.inj ho
            exact ⟨c, by rw [answer, told_invalid]; exact moved_zero hc hv⟩
          · obtain ⟨⟨count, mem, e', d'⟩, hq, heq⟩ := bind_eq_ok.1 ho
            obtain rfl := Except.ok.inj heq
            rw [told_copyTo]
            exact exists_moved_copyTo h hc hv he hd hq
      · obtain rfl := Except.ok.inj ho
        exact ⟨c, by rw [answer, told_invalid]; exact moved_zero hc hv⟩
  | _ => exact ht.elim

theorem exists_moved_step (h : s.pool.WellFormed) (hc : s.slots.get slot = some c)
    (hv : c.Valid s.pool) {t : Step n m k} (ht : t.IsMotion) (ho : s.step t = .ok o) :
    ∃ c', s.Moved o.state slot c (t.told slot o.reply) c' := by
  cases t with
  | through i t =>
      simp only [step] at ho
      split at ho
      · next e he => exact exists_moved_stepThrough h hc hv he ht ho
      · obtain rfl := Except.ok.inj ho
        exact ⟨c, by rw [answer, told_invalid]; exact moved_zero hc hv⟩
  | _ => exact ht.elim

/-- **In a run of motions a valid cursor comes as far as the answers tell.** -/
theorem run_moves {steps : List (Step n m k)}
    {outcomes : List (Outcome Span n (BufferSession n m k))} (h : s.pool.WellFormed)
    (hc : s.slots.get slot = some c) (hv : c.Valid s.pool) (hsteps : ∀ t ∈ steps, t.IsMotion)
    (hrun : Session.run step s steps = (outcomes, .ok s')) :
    ∃ c', s.Moved s' slot c (told slot steps outcomes) c' := by
  induction steps generalizing s c outcomes with
  | nil =>
      obtain ⟨rfl, heq⟩ := Prod.mk.inj hrun
      obtain rfl := Except.ok.inj heq
      exact ⟨c, moved_zero hc hv⟩
  | cons t steps ih =>
      cases ht : s.step t with
      | error e =>
          rw [Session.run_cons_of_error step ht] at hrun
          cases (Prod.mk.inj hrun).2
      | ok o =>
          obtain ⟨c₁, hm₁⟩ := exists_moved_step h hc hv (hsteps t List.mem_cons_self) ht
          rw [Session.run_cons_of_ok step ht] at hrun
          obtain ⟨rfl, hlast⟩ := Prod.mk.inj hrun
          have hv₁ := hm₁.moves.valid
          rw [← hm₁.pool] at h hv₁
          obtain ⟨c', hm⟩ := ih h hm₁.slot hv₁ (fun u hu => hsteps u (List.mem_cons_of_mem t hu))
            (Prod.ext rfl hlast)
          have hmoves := hm.moves
          rw [hm₁.pool] at hmoves
          rw [told, List.zipWith_cons_cons, List.sum_cons]
          exact ⟨c', hm.pool.trans hm₁.pool, hm.slot, hm₁.moves.trans hmoves⟩

/-! ### Motions of valid cursors succeed -/

/-- All cursors are valid. -/
def AllValid (s : BufferSession n m k) : Prop :=
  ∀ i, ∀ c ∈ s.slots.get i, c.Valid s.pool

instance (s : BufferSession n m k) : Decidable s.AllValid :=
  inferInstanceAs (Decidable (∀ i, ∀ c ∈ s.slots.get i, c.Valid s.pool))

theorem AllValid.put (h : s.AllValid) (hc : c.Valid s.pool) (mem : Memory) (i : Fin k) :
    ((s.setMemory mem).put i c).AllValid := by
  intro j e he
  by_cases hj : j = i
  · subst hj
    obtain rfl := Option.some.inj (slots_put_self.symm.trans he)
    exact hc
  · exact h j e ((slots_put_of_ne hj).symm.trans he)

theorem exists_stepThrough (h : s.pool.WellFormed) (hs : s.AllValid)
    (he : s.slots.get i = some e) {t : CursorStep n m k} (ht : t.IsMotion) :
    ∃ o, s.stepThrough i e t = .ok o ∧ o.state.pool = s.pool ∧ o.state.AllValid := by
  have hv := hs i e he
  cases t with
  | advance count =>
      obtain ⟨e', hq, hm⟩ := e.advance_eq h hv count
      exact ⟨_, by rw [stepThrough, hq]; rfl, rfl, hs.put hm.valid s.memory i⟩
  | readByte =>
      obtain ⟨b, e', hq, hm⟩ := e.readByte_eq s.memory h hv
      exact ⟨_, by rw [stepThrough, hq]; rfl, rfl, hs.put hm.valid s.memory i⟩
  | copyInto dst =>
      obtain ⟨e', hq, hm⟩ := e.copyInto_eq s.memory h hv dst
      exact ⟨_, by rw [stepThrough, hq]; rfl, rfl, hs.put hm.valid s.memory i⟩
  | writeByte b =>
      obtain ⟨count, mem, e', hq, hm⟩ := e.writeByte_eq s.memory h hv b
      exact ⟨_, by rw [stepThrough, hq]; rfl, rfl, hs.put hm.valid mem i⟩
  | write row =>
      obtain ⟨e', hq, hm⟩ := e.write_eq s.memory h hv row
      exact ⟨_, by rw [stepThrough, hq]; rfl, rfl, hs.put hm.valid _ i⟩
  | copyTo j total =>
      rw [stepThrough]
      cases hd : s.slots.get j with
      | none => exact ⟨_, rfl, rfl, hs⟩
      | some d =>
          by_cases hij : i = j
          · exact ⟨_, if_pos hij, rfl, hs⟩
          · obtain ⟨bs, e', d', moved, hq, -, hme, hmd, -⟩ :=
              ByteCursor.copyTo_eq s.memory h hv (hs j d hd) total
            simp only [if_neg hij, hq]
            exact ⟨_, rfl, rfl, (hs.put hme.valid _ i).put hmd.valid _ j⟩
  | _ => exact ht.elim

/-- **A run of motions of valid cursors succeeds.** -/
theorem run_motions {steps : List (Step n m k)} (h : s.pool.WellFormed) (hs : s.AllValid)
    (hsteps : ∀ t ∈ steps, t.IsMotion) :
    ∃ outcomes s', Session.run step s steps = (outcomes, .ok s') := by
  let anything : BufferSession n m k → Step n m k → Outcome Span n (BufferSession n m k) → Prop :=
    fun _ _ _ => True
  have hstep : ∀ (s : BufferSession n m k) (t : Step n m k), s.pool.WellFormed ∧ s.AllValid →
      t.IsMotion → ∃ o, s.step t = .ok o ∧ (o.state.pool.WellFormed ∧ o.state.AllValid) ∧
        anything s t o := by
    intro s t hinv ht
    cases t with
    | through i t =>
        rw [step]
        cases he : s.slots.get i with
        | none => exact ⟨_, rfl, hinv, trivial⟩
        | some e =>
            obtain ⟨o, ho, hpool, hvalid⟩ := exists_stepThrough hinv.1 hinv.2 he ht
            exact ⟨o, ho, ⟨hpool ▸ hinv.1, hvalid⟩, trivial⟩
    | _ => exact ht.elim
  obtain ⟨outcomes, s', hrun, -, -⟩ := Session.run_succeeds hstep ⟨h, hs⟩
    (.of_forall fun t ht _ => hsteps t ht)
  exact ⟨outcomes, s', hrun⟩

/-! ### Equal cursors -/

/-- What a step leaves in the pool and in a slot, and what it answers. -/
def view (slot : Fin k) (o : Outcome Span n (BufferSession n m k)) :
    Reply Span n × Pool Span n m × Option (ByteCursor n m) :=
  (o.reply, o.state.pool, o.state.slots.get slot)

/-- Splits at equal cursors are the same, whatever else the sessions have. -/
theorem split_congr {t : BufferSession n m k} {j : Fin k} (hpool : t.pool = s.pool)
    (hs : s.slots.get i = some c) (ht : t.slots.get j = some c) (tail : Fin m)
    (extra : Option (Fin n)) :
    (s.step (.through i (.splitAt tail extra))).map (view i) =
      (t.step (.through j (.splitAt tail extra))).map (view j) := by
  simp only [step, hs, ht, stepThrough, splitAt, hpool]
  cases c.splitAt s.pool tail extra with
  | error e => rfl
  | ok result =>
      cases result with
      | error r =>
          refine congrArg Except.ok ?_
          simp only [view, hs, ht, hpool]
      | ok r =>
          refine congrArg Except.ok ?_
          simp only [view, slots_put_self]
          rfl

end BufferSession

/-- **Every place between the bytes of a list has one cursor**, in a session with well-formed lists.

* Two valid cursors of one list, of no more bytes than a size can tell, are equal exactly if equally
  many bytes remain.
* Motions, through any slots, are taken in two sessions with the same pool.  If a valid cursor in a slot
  of the one and a cursor in a slot of the other are equal at first and the answers tell of equally many
  bytes in total, they are equal and valid afterwards; and splits at both are the same.
* If all cursors are valid, motions succeed. -/
theorem places_have_one_cursor {s : BufferSession n m k} (h : s.pool.WellFormed) :
    (∀ i j c e, s.slots.get i = some c → s.slots.get j = some e → c.Valid s.pool →
      e.Valid s.pool → c.list = e.list → (s.pool.addresses c.list).length < sizeLimit →
        ∃ a b, s.step (.through i .remaining) = .ok (s.answer (.size a)) ∧
          s.step (.through j .remaining) = .ok (s.answer (.size b)) ∧
          s.step (.through i (.samePlace j)) = .ok (s.answer (.flag (decide (a = b))))) ∧
    (∀ (t : BufferSession n m k) i j c, t.pool = s.pool → s.slots.get i = some c →
      t.slots.get j = some c → c.Valid s.pool →
        ∀ steps steps' outcomes outcomes' s' t', (∀ u ∈ steps, u.IsMotion) →
          (∀ u ∈ steps', u.IsMotion) →
          Session.run BufferSession.step s steps = (outcomes, .ok s') →
          Session.run BufferSession.step t steps' = (outcomes', .ok t') →
          BufferSession.told i steps outcomes = BufferSession.told j steps' outcomes' →
            s'.pool = s.pool ∧ t'.pool = s.pool ∧
            (∃ c', s'.slots.get i = some c' ∧ t'.slots.get j = some c' ∧ c'.Valid s.pool) ∧
            ∀ tail extra,
              (s'.step (.through i (.splitAt tail extra))).map (BufferSession.view i) =
                (t'.step (.through j (.splitAt tail extra))).map (BufferSession.view j)) ∧
    (s.AllValid → ∀ steps, (∀ u ∈ steps, u.IsMotion) →
      ∃ outcomes s', Session.run BufferSession.step s steps = (outcomes, .ok s')) := by
  refine ⟨fun i j c e hc he hvc hve hlist hfit => ?_, ?_,
    fun hs steps hsteps => BufferSession.run_motions h hs hsteps⟩
  · refine ⟨(c.ahead s.pool).length, (e.ahead s.pool).length, ?_, ?_, ?_⟩
    · rw [BufferSession.step, hc]
      simp only [BufferSession.stepThrough, c.remaining_eq h hvc hfit]
      rfl
    · rw [BufferSession.step, he]
      simp only [BufferSession.stepThrough, e.remaining_eq h hve (hlist ▸ hfit)]
      rfl
    · rw [BufferSession.step, hc]
      simp only [BufferSession.stepThrough, he, Option.elim, hvc.samePlace_eq h hve hlist]
  · intro t i j c hpool hc he hv steps steps' outcomes outcomes' s' t' hsteps hsteps' hrun hrun'
      htold
    obtain ⟨c₁, hm₁⟩ := BufferSession.run_moves h hc hv hsteps hrun
    obtain ⟨c₂, hm₂⟩ := BufferSession.run_moves (hpool ▸ h) he (hpool ▸ hv) hsteps' hrun'
    have hmoves := hm₂.moves
    rw [hpool, ← htold] at hmoves
    obtain rfl := hm₁.moves.unique h hmoves
    have hsame : t'.pool = s'.pool := (hm₂.pool.trans hpool).trans hm₁.pool.symm
    exact ⟨hm₁.pool, hm₂.pool.trans hpool, ⟨c₁, hm₁.slot, hm₂.slot, hm₁.moves.valid⟩,
      BufferSession.split_congr hsame hm₁.slot hm₂.slot⟩

/-- Two equal cursors pass the end of a span and an empty one behind it: the one by a step and a read,
the other as the target of a copy from another list. -/
theorem places_have_one_cursor_across_spans :
    let pool : Pool Span 5 2 :=
      ⟨#v[⟨⟨some 1, none⟩, ⟨.inMemory 0, 3, by decide⟩⟩, ⟨⟨some 2, some 0⟩, .empty⟩,
          ⟨⟨some 3, some 1⟩, ⟨.inMemory 3, 2, by decide⟩⟩, ⟨⟨none, some 2⟩, .empty⟩,
          ⟨⟨none, none⟩, ⟨.inMemory 5, 4, by decide⟩⟩],
        #v[⟨some 0, some 3⟩, ⟨some 4, some 4⟩]⟩
    let c : ByteCursor 5 2 := ⟨⟨0, some 0⟩, 1⟩
    let s : BufferSession 5 2 3 :=
      ⟨pool, .pattern 9 0 1, #v[some c, some c, some ⟨⟨1, some 4⟩, 0⟩]⟩
    let steps : List (BufferSession.Step 5 2 3) := [.through 0 (.advance 1), .through 0 .readByte]
    let steps' : List (BufferSession.Step 5 2 3) := [.through 2 (.copyTo 1 2)]
    pool.WellFormed ∧ s.AllValid ∧
      (∃ a b, s.step (.through 0 .remaining) = .ok (s.answer (.size a)) ∧
        s.step (.through 1 .remaining) = .ok (s.answer (.size b)) ∧
        s.step (.through 0 (.samePlace 1)) = .ok (s.answer (.flag (decide (a = b))))) ∧
      ∃ outcomes outcomes' s' t' c',
        Session.run BufferSession.step s steps = (outcomes, .ok s') ∧
        Session.run BufferSession.step s steps' = (outcomes', .ok t') ∧
        s'.slots.get 0 = some c' ∧ t'.slots.get 1 = some c' ∧
        (s'.step (.through 0 (.splitAt 1 none))).map (BufferSession.view 0) =
          (t'.step (.through 1 (.splitAt 1 none))).map (BufferSession.view 1) := by
  intro pool c s steps steps'
  have h : s.pool.WellFormed := by decide
  have hc₀ : s.slots.get 0 = some c := rfl
  have hc₁ : s.slots.get 1 = some c := rfl
  have hv : c.Valid s.pool := by decide
  have hvalid : s.AllValid := by decide
  have hsteps : ∀ u ∈ steps, u.IsMotion := by decide
  have hsteps' : ∀ u ∈ steps', u.IsMotion := by decide
  obtain ⟨hremaining, hsame, hsucceeds⟩ := places_have_one_cursor h
  obtain ⟨outcomes, s', hrun⟩ := hsucceeds hvalid steps hsteps
  obtain ⟨outcomes', t', hrun'⟩ := hsucceeds hvalid steps' hsteps'
  have htold : BufferSession.told 0 steps (Session.run BufferSession.step s steps).1 =
      BufferSession.told 1 steps' (Session.run BufferSession.step s steps').1 := by
    decide +kernel
  rw [hrun, hrun'] at htold
  obtain ⟨-, -, ⟨c', hs', ht', -⟩, hsplit⟩ :=
    hsame s 0 1 c rfl hc₀ hc₁ hv steps steps' _ _ _ _ hsteps hsteps' hrun hrun' htold
  exact ⟨h, hvalid, hremaining 0 1 c c hc₀ hc₁ hv hv rfl (by decide), outcomes, outcomes', s', t',
    c', hrun, hrun', hs', ht', hsplit 1 none⟩

end SpanChain
