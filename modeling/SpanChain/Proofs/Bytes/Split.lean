/-
**Splitting at a byte.**

A split at a valid cursor cuts the addresses of the chain exactly at the cursor, whether the cut is
between two nodes, inside a span or behind the last byte.

Main definitions:

* `SpanChain.ByteCursor.Splits` — what a split makes of the pool and of the cursor.

Main results:

* `SpanChain.ByteCursor.splitInside_eq` — a cut inside a span, seen on rows;
* `SpanChain.ByteCursor.splitAt_aligned`, `SpanChain.ByteCursor.splitAt_unaligned` — the two kinds of
  splits;
* `SpanChain.split_partitions_addresses` — **a split in a session** is declined without a spare node
  where it needs one, and else shares the addresses and the nodes between the two lists.
-/

import SpanChain.Proofs.Bytes.Position
import SpanChain.Proofs.Rows.Frame
import SpanChain.Session.Buffers

set_option relaxedAutoImplicit false
set_option autoImplicit false

namespace SpanChain

variable {n m k : Nat}

namespace ByteCursor

variable {p q : Pool Span n m} {s t : Rows n m} {c c' : ByteCursor n m} {l tail : Fin m}
  {extra : Option (Fin n)} {u v : Row n} {x e : Fin n}

/-- The first byte of a list whose first node has bytes. -/
theorem start_eq (h : p.Represents s) (hs : s l = x :: v) (hx : 0 < p.len x) :
    start p l = ⟨⟨l, some x⟩, 0⟩ := by
  have hskip := h.skipEmpty_eq (u := []) hs
  rw [Pool.skipped_cons_of_pos hx] at hskip
  rw [start, arrive, h.first_eq, hs, hskip]
  rfl

theorem start_of_nil (h : p.Represents s) (hs : s l = []) : start p l = ⟨⟨l, none⟩, 0⟩ := by
  rw [start, arrive, h.first_eq, hs]
  exact congrArg (fun y => (⟨⟨l, y⟩, 0⟩ : ByteCursor n m)) (Pool.skipEmpty_none p)

/-! ### Cuts inside a span -/

theorem inside_of_pos (hx : c.node = some x) (h0 : 0 < c.offset) : c.inside = some x := by
  rw [inside, if_pos h0, hx]

/-- With an offset and a spare node, a split is a cut inside the span. -/
theorem splitAt_of_pos (hx : c.node = some x) (h0 : 0 < c.offset)
    (hq : c.splitInside p tail x e = .ok (q, c')) :
    c.splitAt p tail (some e) = .ok (.ok (.unaligned, q, c')) := by
  simp only [splitAt, inside_of_pos hx h0, hq, bind, Except.bind, pure, Except.pure]

/-- A cut inside the span of a member leaves the first half with it and puts the spare node with the
second half in front of what was behind the member. -/
theorem splitInside_eq (h : p.Represents s) (hx : c.node = some x)
    (hs : s c.list = u ++ x :: v) (hle : c.offset ≤ p.len x) (he : s.Unlisted e)
    (htail : tail ≠ c.list) :
    ∃ q head back, c.splitInside p tail x e = .ok (q, ⟨⟨tail, some e⟩, 0⟩) ∧
      (p.data x).takeFirst c.offset = .ok head ∧ (p.data x).dropFirst c.offset = .ok back ∧
      q.Represents ((s.set c.list (u ++ [x])).set tail (e :: v)) ∧
      (∀ y, q.data y = if y = e then back else if y = x then head else p.data y) ∧
      ∀ y, y ∉ s c.list → y ≠ e → p.SameLinks q y := by
  obtain ⟨head, hhead⟩ : ∃ head, (p.data x).takeFirst c.offset = .ok head := ⟨_, dif_pos hle⟩
  obtain ⟨back, hback⟩ : ∃ back, (p.data x).dropFirst c.offset = .ok back := ⟨_, if_pos hle⟩
  have hcut : s c.list = (u ++ [x]) ++ v := by rw [hs, List.append_cons]
  -- the spare node may carry links of its own, which are cleared before it is linked in
  have hrenew : ((p.setData x head).renew e back).Represents s :=
    ((h.setData x head).unlink he).setData e back
  obtain ⟨q₁, hq₁, hb₁⟩ := hrenew.insertAfter hcut he
  rw [List.getLast?_concat] at hq₁
  have hrow : (s.set c.list ((u ++ [x]) ++ e :: v)) c.list = (u ++ [x]) ++ e :: v :=
    Rows.set_self ..
  obtain ⟨q₂, hq₂, hb₂⟩ := hb₁.represents.cutBefore hrow htail.symm
  rw [Rows.set_set] at hb₂
  refine ⟨q₂, head, back, ?_, hhead, hback, hb₂.represents, fun y => ?_, fun y hy hye => ?_⟩
  · have hlist : c.place.list = c.list := rfl
    have hnode : c.place.node = some x := hx
    rw [splitInside, hhead, hback]
    simp only [Cursor.insertAfter, Cursor.cutBefore, Cursor.cutInto, hnode, hlist,
      Pool.insertBeyond_forward, Pool.cutFrom_forward, bind, Except.bind, hq₁, pure, Except.pure,
      if_neg htail.symm, hq₂]
  · rw [hb₂.data, hb₁.data, Pool.renew, Pool.data_setData, Pool.data_unlink, Pool.data_setData]
  · have hspans : p.SameLinks ((p.setData x head).renew e back) y :=
      (Pool.sameLinks_setData p x head y).trans
        ((Pool.sameLinks_unlink _ hye).trans (Pool.sameLinks_setData _ e back y))
    have hyrow : y ∉ (s.set c.list ((u ++ [x]) ++ e :: v)) c.list := by
      rw [Rows.set_self]
      rw [hcut] at hy
      simpa [hye] using hy
    exact (hspans.trans (hrenew.sameLinks_insertAfter hq₁ hy hye)).trans
      (hb₁.represents.sameLinks_cutBefore hq₂ hyrow)

/-- After a cut inside a span its row has the bytes in front of the cursor, and the spare node with
what was behind the member has the bytes from the cursor on. -/
theorem rowAddresses_splitInside (h : p.Represents s) (hx : c.node = some x)
    (hs : s c.list = u ++ x :: v) (he : s.Unlisted e) {head back : Span}
    (hhead : (p.data x).takeFirst c.offset = .ok head)
    (hback : (p.data x).dropFirst c.offset = .ok back)
    (hdata : ∀ y, q.data y = if y = e then back else if y = x then head else p.data y) :
    q.rowAddresses (u ++ [x]) = c.passed p ∧ q.rowAddresses (e :: v) = c.ahead p := by
  have hxe : x ≠ e := fun hxe => he c.list (by simp [hs, ← hxe])
  -- only the two halves of the cut span are new
  have hsame : ∀ y, y ∈ u ∨ y ∈ v → q.data y = p.data y := by
    intro y hy
    have hyx : y ≠ x := by
      rintro rfl
      exact hy.elim (h.apart.notMem_front hs) (h.apart.notMem_back hs)
    have hye : y ≠ e := by
      rintro rfl
      exact he c.list (by rw [hs]; rcases hy with hy | hy <;> simp [hy])
    rw [hdata, if_neg hye, if_neg hyx]
  constructor
  · rw [passed_eq h hs hx, Pool.rowAddresses_append,
      Pool.rowAddresses_congr fun y hy => hsame y (.inl hy), Pool.rowAddresses_cons, hdata,
      if_neg hxe, if_pos rfl, Span.addresses_takeFirst hhead, Pool.rowAddresses_nil,
      List.append_nil]
  · rw [ahead_eq h hs hx, Pool.rowAddresses_cons,
      Pool.rowAddresses_congr fun y hy => hsame y (.inr hy), hdata, if_pos rfl,
      Span.addresses_dropFirst hback]

/-! ### The two kinds of splits -/

/-- What a split at the cursor `c` of the pool `p` leads to: an answer, another pool and another
cursor. -/
structure Splits (p : Pool Span n m) (c : ByteCursor n m) (tail : Fin m) (extra : Option (Fin n))
    (split : Split n) (q : Pool Span n m) (c' : ByteCursor n m) : Prop where
  /-- All lists are linked along rows that have no node in common. -/
  wellFormed : q.WellFormed
  /-- The two lists together describe what the one described. -/
  whole : q.addresses c.list ++ q.addresses tail = p.addresses c.list
  /-- What the cursor has passed stays. -/
  kept : q.addresses c.list = c.passed p
  /-- What is ahead of the cursor goes to the tail. -/
  moved : q.addresses tail = c.ahead p
  /-- The two lists together have the nodes that the one had, and between them the spare node if the
  cut is inside a span. -/
  nodes : ∃ v, q.members tail = (if 0 < c.offset then extra.toList else []) ++ v ∧
    q.members c.list ++ v = p.members c.list
  /-- If the cut is in front of a node, the tail starts with it. -/
  first : c.offset = 0 → q.first tail = c.node
  /-- At a finished cursor the list keeps all its nodes, and the tail has none. -/
  finished : c.node = none → q.members c.list = p.members c.list ∧ q.members tail = []
  /-- The cursor is a fresh one on the tail. -/
  start : c' = ByteCursor.start q tail
  /-- The cursor is valid. -/
  valid : c'.Valid q
  /-- The spare node is used exactly where the cut is inside a span. -/
  unaligned_iff : split = .unaligned ↔ 0 < c.offset
  /-- A spare node that is used is the first one of the tail. -/
  used : 0 < c.offset → extra = q.first tail
  /-- A spare node that is not used is handed back and has the links that it had, and all nodes
  describe what they described. -/
  handed_back : c.offset = 0 → split = .aligned extra ∧
    (∀ e ∈ extra, q.next e = p.next e ∧ q.prev e = p.prev e) ∧ ∀ y, q.data y = p.data y
  /-- The other lists have the nodes that they had and describe what they described. -/
  others : ∀ j, j ≠ c.list → j ≠ tail →
    q.members j = p.members j ∧ q.addresses j = p.addresses j
  /-- All nodes but the one that is cut and the spare one describe what they described. -/
  data : ∀ y, some y ≠ c.node → some y ≠ extra → q.data y = p.data y

/-- What is common to all splits, from the rows after them. -/
theorem Splits.of_rows {split : Split n} {c' : ByteCursor n m} (h : p.WellFormed)
    (hc : c.Valid p) (hextra : ∀ e ∈ extra, Rows.Unlisted p.members e)
    (hq : q.Represents ((Rows.set p.members c.list u).set tail v))
    (htail : tail ≠ c.list)
    (hnodes : ∃ w, v = (if 0 < c.offset then extra.toList else []) ++ w ∧ u ++ w = p.members c.list)
    (hfirst : c.offset = 0 → v.head? = c.node) (hkept : q.rowAddresses u = c.passed p)
    (hmoved : q.rowAddresses v = c.ahead p) (hstart : c' = ByteCursor.start q tail)
    (hunaligned : split = .unaligned ↔ 0 < c.offset) (hused : 0 < c.offset → extra = v.head?)
    (hback : c.offset = 0 → split = .aligned extra ∧
      (∀ e ∈ extra, q.next e = p.next e ∧ q.prev e = p.prev e) ∧ ∀ y, q.data y = p.data y)
    (hdata : ∀ y, some y ≠ c.node → some y ≠ extra → q.data y = p.data y) :
    Splits p c tail extra split q c' := by
  have hlistRow : q.members c.list = u := by
    rw [hq.members_eq, Rows.set_of_ne htail.symm, Rows.set_self]
  have htailRow : q.members tail = v := by rw [hq.members_eq, Rows.set_self]
  have hlist : q.addresses c.list = c.passed p := by
    rw [Pool.addresses_eq_rowAddresses, hlistRow, hkept]
  have htails : q.addresses tail = c.ahead p := by
    rw [Pool.addresses_eq_rowAddresses, htailRow, hmoved]
  refine { wellFormed := hq.wellFormed, whole := ?_, kept := hlist, moved := htails,
           nodes := ?_, first := fun h0 => ?_, finished := fun hx => ?_,
           start := hstart, valid := ?_, unaligned_iff := hunaligned, used := fun h0 => ?_,
           handed_back := hback, others := fun j hj hjt => ?_, data := hdata }
  · rw [hlist, htails, passed_append_ahead h hc]
  · rwa [hlistRow, htailRow]
  · rw [hq.first_eq, Rows.set_self, hfirst h0]
  · -- a finished cursor has no offset, so that nothing stands in front of the cut row
    have h0 := hc.offset_eq_zero hx
    have hv : v = [] := List.head?_eq_none_iff.1 ((hfirst h0).trans hx)
    obtain ⟨w, hvw, huw⟩ := hnodes
    obtain rfl : w = [] := by simpa [h0, hv] using hvw
    exact ⟨hlistRow.trans (by simpa using huw), htailRow.trans hv⟩
  · rw [hstart]
    exact valid_start hq.wellFormed tail
  · rw [hused h0, hq.first_eq, Rows.set_self]
  · have hrow : q.members j = p.members j := by
      rw [hq.members_eq, Rows.set_of_ne hjt, Rows.set_of_ne hj]
    refine ⟨hrow, ?_⟩
    rw [Pool.addresses_eq_rowAddresses, Pool.addresses_eq_rowAddresses, hrow]
    refine Pool.rowAddresses_congr fun y hy => hdata y (fun hynode => ?_) fun hye => ?_
    · obtain ⟨u, v, hs, -⟩ := hc.exists_cut h hynode.symm
      exact hj (h.apart.same_row hy (by rw [hs]; simp))
    · exact hextra y hye.symm j hy

/-- A split between two nodes, or behind the last byte, needs no spare node. -/
theorem splitAt_aligned (h : p.WellFormed) (hc : c.Valid p) (htail : tail ≠ c.list)
    (hextra : ∀ e ∈ extra, Rows.Unlisted p.members e) (h0 : c.offset = 0) :
    ∃ split q c', c.splitAt p tail extra = .ok (.ok (split, q, c')) ∧
      Splits p c tail extra split q c' := by
  have hinside : c.inside = none := if_neg (by omega)
  cases hx : c.node with
  | none =>
      -- a finished cursor has nothing ahead, and the tail is emptied
      have hnode : c.place.node = none := hx
      have hb := h.clear tail
      refine ⟨.aligned extra, p.clear tail, { c with place := ⟨tail, none⟩ }, ?_, ?_⟩
      · have hlist : c.place.list = c.list := rfl
        simp only [splitAt, hinside, Cursor.cutBefore, Cursor.cutInto, hnode, hlist,
          if_neg htail.symm, bind, Except.bind, pure, Except.pure]
      · have hrow : p.members = Rows.set p.members c.list (p.members c.list) := by simp
        refine .of_rows (u := p.members c.list) (v := []) h hc hextra (hrow ▸ hb.represents) htail
          ⟨[], by simp [h0]⟩ (fun _ => hx.symm) ?_ ?_ ?_ (by simp [h0]) (by simp [h0])
          (fun _ => ⟨rfl, ?_, hb.data⟩) (fun y _ _ => hb.data y)
        · rw [passed_of_none hx, Pool.addresses_eq_rowAddresses]
          exact Pool.rowAddresses_congr fun y _ => hb.data y
        · rw [ahead_of_none hx]
          rfl
        · rw [start_of_nil hb.represents (Rows.set_self ..), h0]
        · simp
  | some x =>
      obtain ⟨u, v, hs, hlt⟩ := hc.exists_cut h hx
      have hnode : c.place.node = some x := hx
      obtain ⟨q, hq, hb⟩ := h.cutBefore hs htail.symm
      refine ⟨.aligned extra, q, { c with place := ⟨tail, some x⟩ }, ?_, ?_⟩
      · have hlist : c.place.list = c.list := rfl
        simp only [splitAt, hinside, Cursor.cutBefore, Cursor.cutInto, hnode, hlist,
          if_neg htail.symm, Pool.cutFrom_forward, hq, bind, Except.bind, pure, Except.pure]
      · refine .of_rows h hc hextra hb.represents htail ⟨x :: v, by simp [h0, hs]⟩
          (fun _ => hx.symm) ?_ ?_ ?_ (by simp [h0]) (by simp [h0])
          (fun _ => ⟨rfl, ?_, hb.data⟩) (fun y _ _ => hb.data y)
        · rw [passed_eq h hs hx, h0, List.take_zero, List.append_nil]
          exact Pool.rowAddresses_congr fun y _ => hb.data y
        · rw [ahead_eq h hs hx, h0, List.drop_zero, ← Pool.rowAddresses_cons]
          exact Pool.rowAddresses_congr fun y _ => hb.data y
        · have hlen : 0 < q.len x := by
            rw [Pool.len, hb.data]
            exact Nat.lt_of_le_of_lt (Nat.zero_le _) hlt
          rw [start_eq hb.represents (Rows.set_self ..) hlen, h0]
        · intro e he
          -- the spare node is on none of the new rows either, so its links are not written to
          have hel : e ∉ u ++ x :: v := hs ▸ hextra e he c.list
          have hleft : (Rows.set p.members c.list u).Unlisted e :=
            (hextra e he).set c.list fun hmem => hel (List.mem_append_left _ hmem)
          exact hb.links e (hextra e he)
            (hleft.set tail fun hmem => hel (List.mem_append_right _ hmem))

/-- A split inside a span gives its second half to the spare node. -/
theorem splitAt_unaligned (h : p.WellFormed) (hc : c.Valid p) (htail : tail ≠ c.list)
    (he : Rows.Unlisted p.members e) (h0 : 0 < c.offset) :
    ∃ q c', c.splitAt p tail (some e) = .ok (.ok (.unaligned, q, c')) ∧
      Splits p c tail (some e) .unaligned q c' := by
  cases hx : c.node with
  | none => exact absurd (hc.offset_eq_zero hx) (Nat.ne_of_gt h0)
  | some x =>
      obtain ⟨u, v, hs, hlt⟩ := hc.exists_cut h hx
      obtain ⟨q, head, back, hq, hhead, hback, hrep, hdata, -⟩ :=
        splitInside_eq h hx hs hlt.le he htail
      have hextra : ∀ z ∈ some e, Rows.Unlisted p.members z := by rintro z ⟨⟩; exact he
      obtain ⟨hkept, hmoved⟩ := rowAddresses_splitInside h hx hs he hhead hback hdata
      refine ⟨q, ⟨⟨tail, some e⟩, 0⟩, splitAt_of_pos hx h0 hq, ?_⟩
      refine .of_rows h hc hextra hrep htail ⟨v, by simp [h0, hs]⟩ (by omega) hkept hmoved ?_
        (by simp [h0]) (by simp) (by omega) ?_
      · have hlen : 0 < q.len e := by
          rw [Pool.len, hdata, if_pos rfl, (Span.of_dropFirst hback).2]
          exact Nat.sub_pos_of_lt hlt
        exact (start_eq hrep (Rows.set_self ..) hlen).symm
      · intro y hy hye
        rw [hdata, if_neg fun hyx => hye (congrArg some hyx),
          if_neg fun hyx => hy (by rw [hx, hyx])]

/-- Without a spare node a split inside a span is declined. -/
theorem splitAt_declined (hc : c.Valid p) (h0 : 0 < c.offset) :
    c.splitAt p tail none = .ok (.error .missingExtraNode) := by
  cases hx : c.node with
  | none => exact absurd (hc.offset_eq_zero hx) (Nat.ne_of_gt h0)
  | some x =>
      simp only [splitAt, inside_of_pos hx h0]

end ByteCursor

/-! ### In a session -/

/-- **A split at a valid cursor shares the addresses of its chain exactly at the cursor**, and its
nodes with them: at a finished cursor none goes to the tail.  It is declined if and only if the cursor
stands inside a span and no spare node is given, and then nothing has changed.  The spare node may
carry any links, and the tail any nodes. -/
theorem split_partitions_addresses {s : BufferSession n m k} {slot : Fin k} {c : ByteCursor n m}
    {tail : Fin m} {extra : Option (Fin n)} (h : s.pool.WellFormed)
    (hslot : s.slots.get slot = some c) (hc : c.Valid s.pool) (htail : tail ≠ c.list)
    (hextra : ∀ e ∈ extra, Rows.Unlisted s.pool.members e) :
    ∃ o, s.step (.through slot (.splitAt tail extra)) = .ok o ∧
      (o.reply = .refused .missingExtraNode ↔ 0 < c.offset ∧ extra = none) ∧
      (o.reply = .refused .missingExtraNode → o.state = s) ∧
      (o.reply ≠ .refused .missingExtraNode →
        ∃ split c', o.reply = .split split ∧
          o.state = (s.setPool o.state.pool).put slot c' ∧
          c.Splits s.pool tail extra split o.state.pool c') := by
  have hstep : s.step (.through slot (.splitAt tail extra)) = s.splitAt slot c tail extra := by
    simp only [BufferSession.step, hslot, BufferSession.stepThrough]
  rw [hstep, BufferSession.splitAt]
  rcases Nat.eq_zero_or_pos c.offset with h0 | h0
  · obtain ⟨split, q, c', heq, hsplits⟩ := c.splitAt_aligned h hc htail hextra h0
    rw [heq]
    exact ⟨_, rfl, by simp [h0], by simp, fun _ => ⟨split, c', rfl, rfl, hsplits⟩⟩
  · cases extra with
    | none =>
        rw [ByteCursor.splitAt_declined hc h0]
        exact ⟨_, rfl, by simp [h0], by simp, by simp⟩
    | some e =>
        obtain ⟨q, c', heq, hsplits⟩ := c.splitAt_unaligned h hc htail (hextra e rfl) h0
        rw [heq]
        exact ⟨_, rfl, by simp, by simp, fun _ => ⟨.unaligned, c', rfl, rfl, hsplits⟩⟩

/-- A cut inside the second of three spans, with an empty span behind it, a tail that has a node of
its own and a spare node with links left over. -/
theorem split_partitions_addresses_inside :
    let pool : Pool Span 5 2 :=
      ⟨#v[⟨⟨some 1, none⟩, ⟨.inMemory 0, 3, by decide⟩⟩,
          ⟨⟨some 2, some 0⟩, ⟨.inMemory 8, 4, by decide⟩⟩,
          ⟨⟨none, some 1⟩, .empty⟩,
          ⟨⟨none, none⟩, ⟨.inMemory 4, 2, by decide⟩⟩,
          ⟨⟨some 1, some 3⟩, .empty⟩],
        #v[⟨some 0, some 2⟩, ⟨some 3, some 3⟩]⟩
    let c : ByteCursor 5 2 := ⟨⟨0, some 1⟩, 1⟩
    let s : BufferSession 5 2 1 := ⟨pool, .pattern 12 0 1, #v[some c]⟩
    pool.WellFormed ∧ c.Valid pool ∧
    ∃ o, s.step (.through 0 (.splitAt 1 (some 4))) = .ok o ∧
      (o.reply = .refused .missingExtraNode ↔ 0 < c.offset ∧ some (4 : Fin 5) = none) ∧
      (o.reply = .refused .missingExtraNode → o.state = s) ∧
      (o.reply ≠ .refused .missingExtraNode →
        ∃ split c', o.reply = .split split ∧
          o.state = (s.setPool o.state.pool).put 0 c' ∧
          c.Splits s.pool 1 (some 4) split o.state.pool c') :=
  ⟨by decide, by decide,
    split_partitions_addresses (by decide) rfl (by decide) (by decide) (by decide)⟩

end SpanChain
