/-
**Splitting, appending and joining cancel.**

A chain is split inside a span, the tail is appended again and the two halves of the span are joined.
Then all is as it was: the ends and the links, the spans and the cursor.  The spare node comes back
without links, ready for the next round trip; only what the tail held before is dropped, with the
links that its nodes had.

Main definitions:

* `SpanChain.Pool.Restores` — all is as it was but for an emptied list and a node on no list;
* `SpanChain.BufferSession.roundTrip` — the three steps of a session;
* `SpanChain.BufferSession.Inside` — the rules: the cursor is inside a span, and the tail is another
  list.

Main results:

* `SpanChain.Span.meets_halves`, `SpanChain.Span.join_halves` — the halves of a span meet, and one
  span over both is the whole;
* `SpanChain.ByteCursor.exists_roundTrip` — the three operations on chains;
* `SpanChain.round_trips_restore` — **any number of round trips in a session**.
-/

import SpanChain.Proofs.Bytes.Join
import SpanChain.Proofs.Bytes.Split
import SpanChain.Proofs.Rules

set_option relaxedAutoImplicit false
set_option autoImplicit false

namespace SpanChain

variable {n m k : Nat}

/-! ### The halves of a span -/

namespace Span

variable {s head back : Span} {i : Nat}

/-- The halves of a span meet, unless it starts at the null address. -/
theorem meets_halves (hhead : s.takeFirst i = .ok head) (hback : s.dropFirst i = .ok back)
    (hbase : s.base.isNull = false) : head.meets back = true := by
  obtain ⟨-, hb, hl⟩ := of_takeFirst hhead
  obtain ⟨hb', -⟩ := of_dropFirst hback
  simp [meets, finish, hb, hl, hb', hbase]

/-- One span over both halves is the whole. -/
theorem join_halves (hhead : s.takeFirst i = .ok head) (hback : s.dropFirst i = .ok back)
    (hlt : head.len + back.len < sizeLimit) :
    (⟨head.base, head.len + back.len, hlt⟩ : Span) = s := by
  obtain ⟨hle, hb, hl⟩ := of_takeFirst hhead
  obtain ⟨-, hl'⟩ := of_dropFirst hback
  obtain ⟨base, len, hlen⟩ := s
  simp only [mk.injEq]
  exact ⟨hb, by rw [hl, hl']; exact Nat.add_sub_of_le hle⟩

end Span

/-! ### What is restored -/

/-- The pool `q` is as the pool `p` was, but that the list `tail` is empty and that the node `e`,
which is on no list, has no links and may carry something else. -/
structure Pool.Restores (p q : Pool Span n m) (tail : Fin m) (e : Fin n) : Prop where
  /-- All lists are linked along rows that have no node in common. -/
  wellFormed : q.WellFormed
  /-- All lists but the tail have the nodes that they had. -/
  members : q.members = Rows.set p.members tail []
  /-- All lists but the tail have the ends that they had. -/
  ends : ∀ l, l ≠ tail → q.first l = p.first l ∧ q.last l = p.last l
  /-- The tail is empty. -/
  emptied : q.first tail = none ∧ q.last tail = none
  /-- All other nodes have the links that they had, also those that were dropped with the tail. -/
  links : ∀ y, y ≠ e → p.SameLinks q y
  /-- All other nodes describe what they described. -/
  data : ∀ y, y ≠ e → q.data y = p.data y
  /-- The spare node has no links. -/
  spare : q.next e = none ∧ q.prev e = none

namespace Pool.Restores

variable {p q : Pool Span n m} {tail : Fin m} {e : Fin n}

/-- A pool that stands for the same rows, but for an empty tail, has the same ends. -/
theorem of_rows (h : p.WellFormed) (hq : q.Represents (Rows.set p.members tail []))
    (hlinks : ∀ y, y ≠ e → p.SameLinks q y) (hdata : ∀ y, y ≠ e → q.data y = p.data y)
    (hspare : q.next e = none ∧ q.prev e = none) : p.Restores q tail e := by
  refine ⟨hq.wellFormed, hq.members_eq, fun l hl => ?_, ?_, hlinks, hdata, hspare⟩
  · rw [hq.first_eq, hq.last_eq, Rows.set_of_ne hl, h.first_eq, h.last_eq]
    exact ⟨rfl, rfl⟩
  · rw [hq.first_eq, hq.last_eq, Rows.set_self]
    exact ⟨rfl, rfl⟩

theorem unlisted (h : p.Restores q tail e) (he : Rows.Unlisted p.members e) :
    Rows.Unlisted q.members e :=
  h.members ▸ he.set tail List.not_mem_nil

end Pool.Restores

/-! ### The three operations -/

/-- The pool `q` between the second and the third operation: the span of the node `x` has been cut at
an offset, and the spare node `e` stands behind it with the second half. -/
structure Pool.Parted (p q : Pool Span n m) (l tail : Fin m) (u : Row n) (x e : Fin n) (v : Row n)
    (offset : Nat) : Prop where
  /-- The tail has been appended, and what it held before is on no list. -/
  represents : q.Represents ((Rows.set p.members l (u ++ x :: e :: v)).set tail [])
  /-- The node that was cut has the first half. -/
  front : (p.data x).takeFirst offset = .ok (q.data x)
  /-- The spare node has the second half. -/
  back : (p.data x).dropFirst offset = .ok (q.data e)
  /-- All other nodes describe what they described. -/
  data : ∀ y, y ≠ x → y ≠ e → q.data y = p.data y
  /-- No link was written to but along the list. -/
  links : ∀ y, y ∉ p.members l → y ≠ e → p.SameLinks q y

namespace ByteCursor

variable {p q : Pool Span n m} {c : ByteCursor n m} {l tail : Fin m} {e x : Fin n} {u v : Row n}
  {offset : Nat}

/-- Splitting inside a span and appending the tail again leaves the cursor on the spare node. -/
theorem exists_parted (h : p.WellFormed) (hx : c.node = some x)
    (hs : p.members c.list = u ++ x :: v) (h0 : 0 < c.offset) (hoff : c.offset < p.len x)
    (htail : tail ≠ c.list) (he : Rows.Unlisted p.members e) :
    ∃ q₁ c₁ q, c.splitAt p tail (some e) = .ok (.ok (.unaligned, q₁, c₁)) ∧
      appendAtSeam q₁ c.list tail = (q, ⟨⟨c.list, some e⟩, 0⟩) ∧
      p.Parted q c.list tail u x e v c.offset := by
  obtain ⟨q₁, head, back, hq₁, hhead, hback, hrep₁, hdata₁, hlinks₁⟩ :=
    splitInside_eq h hx hs hoff.le he htail
  have hxe : x ≠ e := fun hxe => he c.list (by simp [hs, ← hxe])
  have hsplit : c.splitAt p tail (some e) =
      .ok (.ok (.unaligned, q₁, ⟨⟨tail, some e⟩, 0⟩)) := splitAt_of_pos hx h0 hq₁
  have hrow : (Rows.set p.members c.list (u ++ [x])).set tail (e :: v) c.list = u ++ [x] := by
    rw [Rows.set_of_ne htail.symm, Rows.set_self]
  have hrows : (((Rows.set p.members c.list (u ++ [x])).set tail (e :: v)).set c.list
      (u ++ x :: e :: v)).set tail [] =
        (Rows.set p.members c.list (u ++ x :: e :: v)).set tail [] := by
    rw [Rows.set_comm htail.symm p.members, Rows.set_set, Rows.set_comm htail, Rows.set_set]
  have hb := hrep₁.append htail.symm
  rw [hrow, Rows.set_self, ← List.append_cons, hrows] at hb
  have hdata : ∀ y, (q₁.append c.list tail).data y =
      if y = e then back else if y = x then head else p.data y := fun y => by
    rw [hb.data, hdata₁]
  refine ⟨q₁, _, q₁.append c.list tail, hsplit, ?_, hb.represents, ?_, ?_, ?_, ?_⟩
  · -- the spare node has bytes, so the cursor does not step over it
    have hfirst : q₁.first tail = some e := by rw [hrep₁.first_eq, Rows.set_self]; rfl
    have hlen : 0 < (q₁.append c.list tail).len e := by
      rw [Pool.len, hdata, if_pos rfl, (Span.of_dropFirst hback).2]
      exact Nat.sub_pos_of_lt hoff
    have hcut : (Rows.set p.members c.list (u ++ x :: e :: v)).set tail [] c.list =
        (u ++ [x]) ++ e :: v := by
      rw [Rows.set_of_ne htail.symm, Rows.set_self, ← List.append_cons]
    have hskip := hb.represents.skipEmpty_eq hcut
    rw [Pool.skipped_cons_of_pos hlen] at hskip
    rw [appendAtSeam_eq, hfirst, arrive]
    exact congrArg (fun a => (q₁.append c.list tail, (⟨⟨c.list, a⟩, 0⟩ : ByteCursor n m))) hskip
  · rw [hdata, if_neg hxe, if_pos rfl, hhead]
  · rw [hdata, if_pos rfl, hback]
  · intro y hyx hye
    rw [hdata, if_neg hye, if_neg hyx]
  · intro y hy hye
    refine (hlinks₁ y hy hye).trans (hrep₁.sameLinks_append ?_ ?_)
    · rw [hs] at hy
      rw [hrow]
      simp_all
    · rw [hs] at hy
      rw [Rows.set_self]
      simp_all

/-- Joining the two halves restores the pool and puts the cursor back. -/
theorem joinBack_of_parted (h : p.WellFormed) (hq : p.Parted q l tail u x e v offset)
    (hs : p.members l = u ++ x :: v) (htail : tail ≠ l)
    (hbase : (p.data x).base.isNull = false) (he : Rows.Unlisted p.members e) :
    ∃ q', joinBack q ⟨⟨l, some e⟩, 0⟩ = .ok (some e, q', ⟨⟨l, some x⟩, offset⟩) ∧
      p.Restores q' tail e := by
  have hxe : x ≠ e := fun hxe => he l (by simp [hs, ← hxe])
  obtain ⟨hle, -, hlen⟩ := Span.of_takeFirst hq.front
  obtain ⟨-, hlen'⟩ := Span.of_dropFirst hq.back
  have hrow : (Rows.set p.members l (u ++ x :: e :: v)).set tail [] l = u ++ x :: e :: v := by
    rw [Rows.set_of_ne htail.symm, Rows.set_self]
  have hlimit := (p.data x).len_lt
  have hlt : (q.data x).len + q.len e < sizeLimit := by
    rw [Pool.len, hlen, hlen', Nat.add_sub_of_le hle]
    exact hlimit
  have hprev : q.prev e = some x := by
    rw [hq.represents.prev_eq (hrow.trans (List.append_cons u x (e :: v))), List.getLast?_concat]
  have hjoint : joint q ⟨⟨l, some e⟩, 0⟩ = some (x, e) :=
    joint_eq_some_iff.2 ⟨rfl, hprev, Span.meets_halves hq.front hq.back hbase⟩
  have hoffset : 0 + (q.data x).len < sizeLimit := by omega
  obtain ⟨q', hq', hrep, hspare, hdata, hlinks⟩ :=
    joinBack_of_joint (c := ⟨⟨l, some e⟩, 0⟩) hq.represents hrow hjoint hlt hoffset
  refine ⟨q', by rw [hq', hlen, Nat.zero_add]; rfl, ?_⟩
  -- the rows are the old ones, and so are the links along them
  have hrows : ((Rows.set p.members l (u ++ x :: e :: v)).set tail []).set l (u ++ x :: v) =
      Rows.set p.members tail [] := by
    rw [Rows.set_comm htail, Rows.set_set, ← hs, Rows.set_eq_self]
  have hrep' : q'.Represents (Rows.set p.members tail []) := hrows ▸ hrep
  refine .of_rows h hrep' (fun y hy => ?_) (fun y hy => ?_) hspare
  · by_cases hyl : y ∈ p.members l
    · exact Pool.Represents.sameLinks_of_row h hrep' (Rows.set_of_ne htail.symm) hyl
    · have hynew : y ∉ (Rows.set p.members l (u ++ x :: e :: v)).set tail [] l := by
        rw [hs] at hyl
        rw [hrow]
        simp_all
      exact (hq.links y hyl hy).trans (hlinks y hynew)
  · by_cases hyx : y = x
    · rw [hdata, if_pos hyx, hyx]
      exact Span.join_halves hq.front hq.back hlt
    · rw [hdata, if_neg hyx, hq.data y hyx hy]

/-- **Splitting inside a span, appending the tail and joining cancel**: the spare node is handed back
and the cursor is where it was. -/
theorem exists_roundTrip (h : p.WellFormed) (hc : c.Valid p) (h0 : 0 < c.offset)
    (hbase : ∀ x ∈ c.node, (p.data x).base.isNull = false) (htail : tail ≠ c.list)
    (he : Rows.Unlisted p.members e) :
    ∃ q₁ c₁ q₂ c₂ q, c.splitAt p tail (some e) = .ok (.ok (.unaligned, q₁, c₁)) ∧
      appendAtSeam q₁ c.list tail = (q₂, c₂) ∧ c₂.joinBack q₂ = .ok (some e, q, c) ∧
      p.Restores q tail e := by
  cases hx : c.node with
  | none => exact absurd (hc.offset_eq_zero hx) (Nat.ne_of_gt h0)
  | some x =>
      obtain ⟨u, v, hs, hoff⟩ := hc.exists_cut h hx
      obtain ⟨q₁, c₁, q₂, hsplit, hseam, hparted⟩ := exists_parted h hx hs h0 hoff htail he
      obtain ⟨q, hq, hrestores⟩ := joinBack_of_parted h hparted hs htail (hbase x hx) he
      have hcursor : (⟨⟨c.list, some x⟩, c.offset⟩ : ByteCursor n m) = c := by rw [← hx]; rfl
      exact ⟨q₁, c₁, q₂, _, q, hsplit, hseam, hcursor ▸ hq, hrestores⟩

end ByteCursor

/-! ### In a session -/

namespace BufferSession

/-- A round trip of a session.  The cursor of the trip is put into the slot; its list is split there
with the spare node `e`, the tail of the trip is appended again with the cursor at the seam, and the
halves are joined. -/
def roundTrip (slot : Fin k) (e : Fin n) (s : BufferSession n m k) (trip : ByteCursor n m × Fin m) :
    Except Fault (Outcome Span n (BufferSession n m k)) := do
  let split ← (s.put slot trip.1).step (.through slot (.splitAt trip.2 (some e)))
  let seam ← split.state.step (.appendAtSeam trip.1.list trip.2 (some slot))
  seam.state.step (.through slot .joinBack)

/-- The rules of a round trip: its cursor is valid and inside a span that does not start at the null
address, and its tail is another list. -/
structure Inside (s : BufferSession n m k) (trip : ByteCursor n m × Fin m) : Prop where
  valid : trip.1.Valid s.pool
  offset : 0 < trip.1.offset
  base : ∀ x ∈ trip.1.node, (s.pool.data x).base.isNull = false
  tail : trip.2 ≠ trip.1.list

instance (s : BufferSession n m k) : DecidablePred s.Inside := fun trip =>
  decidable_of_iff (trip.1.Valid s.pool ∧ 0 < trip.1.offset ∧
      (∀ x ∈ trip.1.node, (s.pool.data x).base.isNull = false) ∧ trip.2 ≠ trip.1.list)
    ⟨fun h => ⟨h.1, h.2.1, h.2.2.1, h.2.2.2⟩, fun h => ⟨h.valid, h.offset, h.base, h.tail⟩⟩

/-- What a round trip leads to. -/
structure ComesBack (slot : Fin k) (e : Fin n) (s : BufferSession n m k)
    (trip : ByteCursor n m × Fin m) (o : Outcome Span n (BufferSession n m k)) : Prop where
  /-- The spare node is handed back. -/
  reply : o.reply = .node (some e)
  /-- The cursor is in its slot as it was, on the same node of the same list and with the same offset;
  the memory and all other slots are as they were. -/
  state : o.state = (s.put slot trip.1).setPool o.state.pool
  /-- All of the pool is as it was, but that the tail is empty and the spare node has no links. -/
  pool : s.pool.Restores o.state.pool trip.2 e

variable {s : BufferSession n m k} {slot : Fin k} {e : Fin n} {trip : ByteCursor n m × Fin m}

/-- **A round trip comes back.** -/
theorem roundTrip_comesBack (h : s.pool.WellFormed) (he : Rows.Unlisted s.pool.members e)
    (htrip : s.Inside trip) :
    ∃ o, roundTrip slot e s trip = .ok o ∧ ComesBack slot e s trip o := by
  obtain ⟨c, tail⟩ := trip
  obtain ⟨q₁, c₁, q₂, c₂, q, hsplit, hseam, hjoin, hrestores⟩ :=
    ByteCursor.exists_roundTrip h htrip.valid htrip.offset htrip.base htrip.tail he
  -- the three outcomes, each of which keeps the cursor in the slot
  obtain ⟨o₁, ho₁, hstate₁⟩ : ∃ o₁,
      (s.put slot c).step (.through slot (.splitAt tail (some e))) = .ok o₁ ∧
        o₁.state = (s.setPool q₁).put slot c₁ := by
    have hpool : (s.put slot c).pool = s.pool := rfl
    simp only [step, slots_put_self, stepThrough, splitAt, hpool, hsplit, bind, Except.bind, pure,
      Except.pure]
    exact ⟨_, rfl, put_put (s := s.setPool q₁)⟩
  obtain ⟨o₂, ho₂, hstate₂⟩ : ∃ o₂, o₁.state.step (.appendAtSeam c.list tail (some slot)) = .ok o₂ ∧
      o₂.state = (s.setPool q₂).put slot c₂ := by
    have hpool : ((s.setPool q₁).put slot c₁).pool = q₁ := rfl
    rw [hstate₁]
    simp only [step, if_neg htrip.tail.symm, slots_put_self, hpool, hseam]
    exact ⟨_, rfl, put_put (s := s.setPool q₂)⟩
  have ho₃ : o₂.state.step (.through slot .joinBack) =
      .ok ⟨.node (some e), (s.put slot c).setPool q, (c₂.joinEvent q₂).toList⟩ := by
    have hpool : ((s.setPool q₂).put slot c₂).pool = q₂ := rfl
    rw [hstate₂]
    simp only [step, slots_put_self, stepThrough, hpool, hjoin, bind, Except.bind, pure,
      Except.pure]
    have hput : (((s.setPool q₂).put slot c₂).setPool q).put slot c = (s.put slot c).setPool q :=
      put_put (s := s.setPool q)
    rw [hput]
  refine ⟨⟨.node (some e), (s.put slot c).setPool q, (c₂.joinEvent q₂).toList⟩, ?_, rfl, rfl,
    hrestores⟩
  rw [roundTrip, ho₁]
  simp only [bind, Except.bind, ho₂, ho₃]

end BufferSession

/-- **Round trips restore everything**, at any positions and any number of times.  Each trip hands
back the same spare node, without links, and leaves the ends, links and spans, the cursor and the
memory as they were before it; only its tail is empty, whatever it held. -/
theorem round_trips_restore {s : BufferSession n m k} {slot : Fin k} {e : Fin n}
    {trips : List (ByteCursor n m × Fin m)} (h : s.pool.WellFormed)
    (he : Rows.Unlisted s.pool.members e)
    (hrules : Session.KeepsTo (BufferSession.roundTrip slot e) BufferSession.Inside s trips) :
    ∃ outcomes s', Session.run (BufferSession.roundTrip slot e) s trips = (outcomes, .ok s') ∧
      Session.EachStep (BufferSession.ComesBack slot e) s trips outcomes := by
  have hstep : ∀ (s : BufferSession n m k) (trip : ByteCursor n m × Fin m),
      s.pool.WellFormed ∧ Rows.Unlisted s.pool.members e → s.Inside trip →
      ∃ o, BufferSession.roundTrip slot e s trip = .ok o ∧
        (o.state.pool.WellFormed ∧ Rows.Unlisted o.state.pool.members e) ∧
          BufferSession.ComesBack slot e s trip o := by
    intro s trip hs htrip
    obtain ⟨o, ho, hback⟩ := BufferSession.roundTrip_comesBack hs.1 hs.2 htrip
    exact ⟨o, ho, ⟨hback.pool.wellFormed, hback.pool.unlisted hs.2⟩, hback⟩
  obtain ⟨outcomes, s', hrun, heach, -⟩ := Session.run_succeeds hstep ⟨h, he⟩ hrules
  exact ⟨outcomes, s', hrun, heach⟩

/-- Round trips at two places of one list and at one of another, the first of them with a tail that
has a node of its own, and with a spare node that has links left over. -/
theorem round_trips_restore_three_places :
    let pool : Pool Span 6 3 :=
      ⟨#v[⟨⟨some 1, none⟩, ⟨.inMemory 0, 3, by decide⟩⟩,
          ⟨⟨some 2, some 0⟩, ⟨.inMemory 3, 4, by decide⟩⟩,
          ⟨⟨none, some 1⟩, .empty⟩,
          ⟨⟨none, none⟩, ⟨.inMemory 10, 2, by decide⟩⟩,
          ⟨⟨none, none⟩, ⟨.inMemory 8, 2, by decide⟩⟩,
          ⟨⟨some 1, some 2⟩, .empty⟩],
        #v[⟨some 0, some 2⟩, ⟨some 3, some 3⟩, ⟨some 4, some 4⟩]⟩
    let s : BufferSession 6 3 1 := ⟨pool, .pattern 12 0 1, #v[none]⟩
    let trips : List (ByteCursor 6 3 × Fin 3) :=
      [(⟨⟨0, some 1⟩, 2⟩, 2), (⟨⟨1, some 3⟩, 1⟩, 2), (⟨⟨0, some 0⟩, 1⟩, 2)]
    pool.WellFormed ∧ Rows.Unlisted pool.members 5 ∧
      Session.KeepsTo (BufferSession.roundTrip 0 5) BufferSession.Inside s trips ∧
      ∃ outcomes s', Session.run (BufferSession.roundTrip 0 5) s trips = (outcomes, .ok s') ∧
        Session.EachStep (BufferSession.ComesBack 0 5) s trips outcomes :=
  ⟨by decide, by decide, by decide +kernel,
    round_trips_restore (by decide) (by decide) (by decide +kernel)⟩

end SpanChain
