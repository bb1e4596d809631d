/-
**Moving past bytes.**

Every operation that handles bytes moves its cursor past them.  On a valid cursor none of them
fails, and how far each comes is told by the addresses ahead: as far as it was meant to, or to the
end.

Main definitions:

* `SpanChain.ByteCursor.Moves` — a cursor has become the one behind its next bytes.

Main results:

* `SpanChain.ByteCursor.advance_eq`, `SpanChain.ByteCursor.rest_eq`;
* `SpanChain.ByteCursor.remaining_eq_addSize`, `SpanChain.ByteCursor.remaining_eq` — how many bytes
  are left, if they can be counted;
* `SpanChain.ByteCursor.Moves.unique`, `SpanChain.ByteCursor.Moves.eq_iff` — the place behind a number
  of bytes is one only;
* `SpanChain.ByteCursor.readUpTo_eq` — reading gives the bytes at the next addresses;
* `SpanChain.ByteCursor.readByte_of_cons`, `SpanChain.ByteCursor.writeByte_of_cons` — so do single
  bytes, read and written;
* `SpanChain.ByteCursor.fillLeft_of_rest` — the first piece of a write;
* `SpanChain.ByteCursor.write_eq` — writing stores its bytes at the next addresses.
-/

import SpanChain.Proofs.Bytes.Position
import SpanChain.Proofs.Bytes.Stored

set_option relaxedAutoImplicit false
set_option autoImplicit false

namespace SpanChain

variable {n m : Nat}

/-- Where a span comes first, the first addresses are those behind its start. -/
theorem Span.take_of_prefix {r : Span} {as : List Address} {j : Nat} (h : r.addresses <+: as)
    (hj : j ≤ r.len) : as.take j = (List.range j).map (r.base + ·) := by
  obtain ⟨bs, rfl⟩ := h
  rw [List.take_append_of_le_length (by rwa [length_addresses]), addresses, ← List.map_take,
    List.take_range, Nat.min_eq_left hj]

namespace ByteCursor

variable {p : Pool Span n m} {s : Rows n m} {c c' c'' : ByteCursor n m} {x : Fin n} {i j : Nat}
  {a : Address} {as : List Address}

/-! ### Places behind a number of bytes -/

/-- The cursor `c'` stands behind the next `j` bytes of the cursor `c`, or at the end if these are
fewer. -/
structure Moves (p : Pool Span n m) (c : ByteCursor n m) (j : Nat) (c' : ByteCursor n m) : Prop where
  /-- The cursor is valid. -/
  valid : c'.Valid p
  /-- The cursor is bound to the same list. -/
  list : c'.list = c.list
  /-- The addresses ahead are the old ones without the first `j`. -/
  ahead : c'.ahead p = (c.ahead p).drop j

theorem Valid.moves_zero (hc : c.Valid p) : c.Moves p 0 c := ⟨hc, rfl, List.drop_zero.symm⟩

theorem Moves.trans (h : c.Moves p i c') (h' : c'.Moves p j c'') : c.Moves p (i + j) c'' :=
  ⟨h'.valid, h'.list.trans h.list, by rw [h'.ahead, h.ahead, List.drop_drop]⟩

/-- At the end, a cursor stands behind any number of bytes. -/
theorem Valid.moves_of_nil (hc : c.Valid p) (hahead : c.ahead p = []) (j : Nat) : c.Moves p j c :=
  ⟨hc, rfl, by rw [hahead, List.drop_nil]⟩

/-- **The place behind a number of bytes is one only.** -/
theorem Moves.unique (hp : p.WellFormed) (h : c.Moves p j c') (h' : c.Moves p j c'') : c' = c'' :=
  h.valid.eq_of_length_ahead hp h'.valid (h.list.trans h'.list.symm) (by rw [h.ahead, h'.ahead])

theorem Moves.length_ahead (h : c.Moves p j c') :
    (c'.ahead p).length = (c.ahead p).length - j := by
  rw [h.ahead, List.length_drop]

/-- Of the bytes to be passed only those count that are there. -/
theorem Moves.truncate (h : c.Moves p j c') : c.Moves p (min j (c.ahead p).length) c' :=
  ⟨h.valid, h.list, by rw [h.ahead, List.drop_eq_drop_min]⟩

/-- Two numbers of bytes lead to the same place exactly if equally many of them are there. -/
theorem Moves.eq_iff (hp : p.WellFormed) (h : c.Moves p i c') (h' : c.Moves p j c'') :
    c' = c'' ↔ min i (c.ahead p).length = min j (c.ahead p).length := by
  constructor
  · rintro rfl
    have hi := h.length_ahead
    have hj := h'.length_ahead
    omega
  · intro hij
    exact (hij ▸ h.truncate).unique hp h'.truncate

/-! ### Moving -/

theorem advanceLeft_of_none (hx : c.node = none) (left : Nat) :
    c.advanceLeft p left = .ok (c, left) := by
  rw [advanceLeft]
  split
  · next h0 => rw [h0]
  · split
    · rfl
    · next y hy => rw [hx] at hy; contradiction

theorem advanceLeft_of_some (hx : c.node = some x) {left : Nat} (h0 : left ≠ 0) :
    c.advanceLeft p left =
      if p.len x < c.offset then .error .subOverflow
      else if c.offset + left < p.len x then .ok ({ c with offset := c.offset + left }, 0)
      else advanceLeft p (arrive p c.list (p.next x)) (left - (p.len x - c.offset)) := by
  rw [advanceLeft, if_neg h0]
  split
  · next hy => rw [hx] at hy; contradiction
  · next y hy =>
      obtain rfl : x = y := Option.some.inj (hx.symm.trans hy)
      rfl

/-- **Moving forward** passes as many bytes as there are, up to the given number. -/
theorem advanceLeft_eq (h : p.WellFormed) (hc : c.Valid p) (left : Nat) :
    ∃ c', c.advanceLeft p left = .ok (c', left - (c.ahead p).length) ∧ c.Moves p left c' := by
  -- the recursion of the definition: a step per span, so the addresses ahead lose one span each
  induction c, left using advanceLeft.induct (p := p) with
  | case1 c => exact ⟨c, by rw [advanceLeft, if_pos rfl, Nat.zero_sub], hc.moves_zero⟩
  | case2 c left h0 hx =>
      have hnil : c.ahead p = [] := ahead_of_none hx
      exact ⟨c, by rw [advanceLeft_of_none hx, hnil]; rfl, hc.moves_of_nil hnil left⟩
  | case3 c left h0 x hx hlt =>
      obtain ⟨u, v, hs, hoff⟩ := hc.exists_cut h hx
      omega
  | case4 c left h0 x hx hle hlt =>
      obtain ⟨u, v, hs, hoff⟩ := hc.exists_cut h hx
      have hlen := p.length_drop_addresses x c.offset
      refine ⟨{ c with offset := c.offset + left }, ?_, valid_of_cut h hs hx hlt, rfl, ?_⟩
      · rw [advanceLeft_of_some hx h0, if_neg hle, if_pos hlt, length_ahead_eq h hs hx]
        congr 2
        omega
      · have hnew := ahead_eq (c := { c with offset := c.offset + left }) h hs hx
        rw [hnew, ahead_eq h hs hx, List.drop_append_of_le_length (by omega), List.drop_drop]
  | case5 c left h0 x hx hle hlt ih =>
      obtain ⟨u, v, hs, hoff⟩ := hc.exists_cut h hx
      have hcut : p.members c.list = (u ++ [x]) ++ v := by rw [hs, List.append_cons]
      have hlen := p.length_drop_addresses x c.offset
      rw [h.next_eq hs] at ih
      obtain ⟨c', hc', hmoves⟩ := ih (valid_arrive h hcut)
      rw [ahead_arrive h hcut] at hc'
      refine ⟨c', ?_, hmoves.valid, hmoves.list, ?_⟩
      · rw [advanceLeft_of_some hx h0, if_neg hle, if_neg hlt, h.next_eq hs, hc',
          length_ahead_eq h hs hx, Nat.sub_sub]
      · have hnil : ((p.data x).addresses.drop c.offset).drop left = [] :=
          List.drop_eq_nil_of_le (by omega)
        rw [hmoves.ahead, ahead_arrive h hcut, ahead_eq h hs hx, List.drop_append, hlen, hnil,
          List.nil_append]

theorem advance_eq (h : p.WellFormed) (hc : c.Valid p) (j : Nat) :
    ∃ c', c.advance p j = .ok (c', min j (c.ahead p).length) ∧ c.Moves p j c' := by
  obtain ⟨c', hc', hmoves⟩ := advanceLeft_eq h hc j
  refine ⟨c', ?_, hmoves⟩
  rw [advance, hc', show min j (c.ahead p).length = j - (j - (c.ahead p).length) by omega]
  rfl

/-- Moving to the place behind so many bytes, where there are so many, comes there and tells their
number. -/
theorem Moves.advance (hp : p.WellFormed) (hc : c.Valid p) (h : c.Moves p j c')
    (hj : j ≤ (c.ahead p).length) : c.advance p j = .ok (c', j) := by
  obtain ⟨c'', hc'', hm⟩ := advance_eq hp hc j
  rw [hc'', hm.unique hp h, Nat.min_eq_left hj]

/-! ### The current span and the number of bytes left -/

/-- What is left of the current span is the beginning of what is ahead, and is empty only at the
end. -/
theorem rest_eq (h : p.WellFormed) (hc : c.Valid p) :
    ∃ r, c.rest p = .ok r ∧ r.addresses <+: c.ahead p ∧ (r.len = 0 ↔ c.ahead p = []) := by
  rw [hc.ahead_eq_nil_iff h]
  cases hx : c.node with
  | none => exact ⟨.empty, by simp only [rest, hx], List.nil_prefix, by simp⟩
  | some x =>
      obtain ⟨u, v, hs, hoff⟩ := hc.exists_cut h hx
      obtain ⟨r, hr⟩ : ∃ r, (p.data x).dropFirst c.offset = .ok r := ⟨_, if_pos hoff.le⟩
      have haddr := Span.addresses_dropFirst hr
      have hlen : r.len = p.len x - c.offset := (Span.of_dropFirst hr).2
      refine ⟨r, by simp only [rest, hx, hr], ?_, ?_⟩
      · rw [ahead_eq h hs hx, haddr]
        exact List.prefix_append ..
      · have hpos : r.len ≠ 0 := by omega
        simp [hpos]

/-- Where a byte is ahead, what is left of the current span starts with it. -/
theorem rest_of_cons (h : p.WellFormed) (hc : c.Valid p) (hahead : c.ahead p = a :: as) :
    ∃ r, c.rest p = .ok r ∧ r.isEmpty = false ∧ r.base = a := by
  obtain ⟨r, hr, hstart, hnil⟩ := rest_eq h hc
  have hlen : r.len ≠ 0 := by
    intro h0
    rw [hnil.1 h0] at hahead
    contradiction
  refine ⟨r, hr, by simpa [Span.isEmpty] using hlen, ?_⟩
  have hfirst := Span.take_of_prefix hstart (Nat.pos_of_ne_zero hlen)
  rw [hahead, List.take_succ_cons, List.take_zero] at hfirst
  simpa using (List.cons.inj hfirst).1.symm

/-- Where no byte is ahead, nothing is left of the current span. -/
theorem rest_of_nil (h : p.WellFormed) (hc : c.Valid p) (hahead : c.ahead p = []) :
    ∃ r, c.rest p = .ok r ∧ r.isEmpty = true := by
  obtain ⟨r, hr, -, hnil⟩ := rest_eq h hc
  exact ⟨r, hr, (Span.isEmpty_iff r).2 (hnil.2 hahead)⟩

/-- The sum along a way is the number of bytes of its nodes, and fails exactly if this is no size. -/
theorem sumLengths_eq {a : Option (Fin n)} {v : Row n} (h : p.Way .forward a v) {total : Nat}
    (htotal : total < sizeLimit) (hv : v.length ≤ j) :
    p.sumLengths j a total = addSize total (p.rowAddresses v).length := by
  induction v generalizing a j total with
  | nil =>
      obtain rfl := h
      rw [Pool.rowAddresses_nil, List.length_nil, addSize_of_lt htotal]
      cases j <;> rfl
  | cons x v ih =>
      obtain ⟨rfl, hway⟩ := h
      cases j with
      | zero => simp at hv
      | succ j =>
          rw [Pool.rowAddresses_cons, List.length_append, p.length_addresses_data, addSize_add,
            Pool.sumLengths]
          cases hsum : addSize total (p.len x) with
          | error e => rfl
          | ok total' =>
              obtain ⟨hlt, rfl⟩ := addSize_eq_ok_iff.1 hsum
              exact ih hway hlt (by simpa using hv)

/-- The number of bytes left is found by way of the sum of whole spans, of which the bytes in front of
the cursor in its span are a part. -/
theorem remaining_eq_addSize (h : p.WellFormed) (hc : c.Valid p) :
    c.remaining p = (fun total => total - c.offset) <$> addSize c.offset (c.ahead p).length := by
  cases hx : c.node with
  | none =>
      rw [remaining, hx, ahead_of_none hx, Pool.sumLengths, hc.offset_eq_zero hx]
      rfl
  | some x =>
      obtain ⟨u, v, hs, hoff⟩ := hc.exists_cut h hx
      have hway := h.way_forward hs
      have hsum := sumLengths_eq hway (Nat.pos_of_neZero sizeLimit) hway.length_le
      have hwhole : 0 + (p.rowAddresses (x :: v)).length = c.offset + (c.ahead p).length := by
        rw [length_ahead_eq h hs hx, Pool.rowAddresses_cons, List.length_append,
          p.length_addresses_data]
        omega
      rw [List.head?_cons, addSize, hwhole] at hsum
      rw [remaining, hx, hsum]
      rfl

/-- The current span and what is behind it are a part of the list. -/
theorem Valid.offset_add_length_ahead_le (h : p.WellFormed) (hc : c.Valid p) :
    c.offset + (c.ahead p).length ≤ (p.addresses c.list).length := by
  cases hx : c.node with
  | none =>
      rw [ahead_of_none hx, hc.offset_eq_zero hx]
      exact Nat.zero_le _
  | some x =>
      obtain ⟨u, v, hs, hoff⟩ := hc.exists_cut h hx
      rw [length_ahead_eq h hs hx, h.addresses_eq, hs, Pool.rowAddresses_append,
        Pool.rowAddresses_cons, List.length_append, List.length_append, p.length_addresses_data]
      omega

/-- The number of bytes left, on a list whose bytes are as many as a size can tell. -/
theorem remaining_eq (h : p.WellFormed) (hc : c.Valid p)
    (hfit : (p.addresses c.list).length < sizeLimit) :
    c.remaining p = .ok (c.ahead p).length := by
  have hwhole := (hc.offset_add_length_ahead_le h).trans_lt hfit
  rw [remaining_eq_addSize h hc, addSize_of_lt hwhole]
  exact congrArg Except.ok (Nat.add_sub_cancel_left ..)

/-! ### Reading -/

variable (mem : Memory)

/-- **Reading** gives the bytes at the next addresses, as many as asked for or up to the end. -/
theorem readUpTo_eq (h : p.WellFormed) (hc : c.Valid p) (j : Nat) :
    ∃ c', c.readUpTo p mem j = .ok (((c.ahead p).take j).map mem.get, c') ∧ c.Moves p j c' := by
  -- every piece has a byte at least, so what is left to be read gets less
  induction j using Nat.strong_induction_on generalizing c with
  | h j ih =>
      by_cases h0 : j = 0
      · subst h0
        exact ⟨c, by rw [readUpTo, if_pos rfl]; rfl, hc.moves_zero⟩
      · obtain ⟨r, hr, hstart, hnil⟩ := rest_eq h hc
        have hunfold := readUpTo.eq_def p mem c j
        rw [if_neg h0, hr] at hunfold
        by_cases hlen : r.len = 0
        · have hahead := hnil.1 hlen
          refine ⟨c, ?_, hc.moves_of_nil hahead j⟩
          rw [hunfold, hahead]
          simp only [hlen, if_true, List.take_nil, List.map_nil]
        · obtain ⟨c₁, hc₁, hm₁⟩ := advance_eq h hc (min r.len j)
          obtain ⟨c₂, hc₂, hm₂⟩ := ih (j - min r.len j) (by omega) hm₁.valid
          -- a piece is a prefix of the current span, so of what is ahead
          have hpiece : mem.load r.base (min r.len j) =
              ((c.ahead p).take (min r.len j)).map mem.get := by
            rw [Memory.load_eq_map, Span.take_of_prefix hstart (Nat.min_le_left ..)]
          have hsum : j = min r.len j + (j - min r.len j) := by omega
          refine ⟨c₂, ?_, hsum ▸ hm₁.trans hm₂⟩
          rw [hunfold]
          simp only [hlen, if_false, hc₁, hc₂, hm₁.ahead, hpiece]
          rw [← List.map_append, ← List.take_add, ← hsum]

/-- A single byte is read at the next address. -/
theorem readByte_of_cons (h : p.WellFormed) (hc : c.Valid p) (hahead : c.ahead p = a :: as) :
    ∃ c', c.readByte p mem = .ok (some (mem.get a), c') ∧ c.Moves p 1 c' := by
  obtain ⟨r, hr, hsome, rfl⟩ := rest_of_cons h hc hahead
  obtain ⟨c', hc', hm⟩ := advance_eq h hc 1
  refine ⟨c', ?_, hm⟩
  rw [readByte, hr]
  simp only [bind, Except.bind, hsome, hc', pure, Except.pure, Bool.false_eq_true, if_false]

/-- Where no byte is ahead, none is read. -/
theorem readByte_of_nil (h : p.WellFormed) (hc : c.Valid p) (hahead : c.ahead p = []) :
    c.readByte p mem = .ok (none, c) := by
  obtain ⟨r, hr, hempty⟩ := rest_of_nil h hc hahead
  rw [readByte, hr]
  simp only [bind, Except.bind, hempty, if_true, pure, Except.pure]

theorem readByte_eq (h : p.WellFormed) (hc : c.Valid p) :
    ∃ b c', c.readByte p mem = .ok (b, c') ∧ c.Moves p 1 c' := by
  cases hahead : c.ahead p with
  | nil => exact ⟨none, c, readByte_of_nil mem h hc hahead, hc.moves_of_nil hahead 1⟩
  | cons a as =>
      obtain ⟨c', hc', hm⟩ := readByte_of_cons mem h hc hahead
      exact ⟨some (mem.get a), c', hc', hm⟩

/-- Reading over a row of bytes replaces its front by the bytes at the next addresses. -/
theorem copyInto_eq (h : p.WellFormed) (hc : c.Valid p) (dst : List UInt8) :
    ∃ c', c.copyInto p mem dst = .ok (min dst.length (c.ahead p).length,
        ((c.ahead p).take dst.length).map mem.get ++
          dst.drop (min dst.length (c.ahead p).length), c') ∧
      c.Moves p dst.length c' := by
  obtain ⟨c', hc', hm⟩ := readUpTo_eq mem h hc dst.length
  refine ⟨c', ?_, hm⟩
  rw [copyInto, hc']
  simp only [bind, Except.bind, pure, Except.pure, List.length_map, List.length_take]

/-! ### Writing -/

/-- A single byte is written to the next address. -/
theorem writeByte_of_cons (h : p.WellFormed) (hc : c.Valid p) (hahead : c.ahead p = a :: as)
    (b : UInt8) : ∃ c', c.writeByte p mem b = .ok (1, mem.set a b, c') ∧ c.Moves p 1 c' := by
  obtain ⟨r, hr, hsome, rfl⟩ := rest_of_cons h hc hahead
  obtain ⟨c', hc', hm⟩ := advance_eq h hc 1
  refine ⟨c', ?_, hm⟩
  rw [writeByte, hr]
  simp only [bind, Except.bind, hsome, hc', pure, Except.pure, Bool.false_eq_true, if_false]

/-- Where no byte is ahead, none is written. -/
theorem writeByte_of_nil (h : p.WellFormed) (hc : c.Valid p) (hahead : c.ahead p = []) (b : UInt8) :
    c.writeByte p mem b = .ok (0, mem, c) := by
  obtain ⟨r, hr, hempty⟩ := rest_of_nil h hc hahead
  rw [writeByte, hr]
  simp only [bind, Except.bind, hempty, if_true, pure, Except.pure]

theorem writeByte_eq (h : p.WellFormed) (hc : c.Valid p) (b : UInt8) :
    ∃ count mem' c', c.writeByte p mem b = .ok (count, mem', c') ∧ c.Moves p 1 c' := by
  cases hahead : c.ahead p with
  | nil => exact ⟨0, mem, c, writeByte_of_nil mem h hc hahead b, hc.moves_of_nil hahead 1⟩
  | cons a as =>
      obtain ⟨c', hc', hm⟩ := writeByte_of_cons mem h hc hahead b
      exact ⟨1, mem.set a b, c', hc', hm⟩

theorem fillLeft_of_end (h : p.WellFormed) (hc : c.Valid p) (hahead : c.ahead p = []) (src : Source)
    (i j : Nat) : fillLeft p src mem c i j = .ok (j, mem, c) := by
  obtain ⟨r, hr, -, hnil⟩ := rest_eq h hc
  rw [fillLeft]
  by_cases h0 : j = 0
  · rw [if_pos h0, h0]
  · rw [if_neg h0, hr]
    simp only [hnil.2 hahead, if_true]

/-- The first piece of a write goes into what is left of the current span. -/
theorem fillLeft_of_rest (h : p.WellFormed) (hc : c.Valid p) {r : Span} (hr : c.rest p = .ok r)
    (hlen : r.len ≠ 0) (h0 : j ≠ 0) (src : Source) (i : Nat) :
    ∃ c₁, c.Moves p (min r.len j) c₁ ∧
      fillLeft p src mem c i j =
        fillLeft p src (mem.store r.base (src.piece mem i (min r.len j))) c₁ (i + min r.len j)
          (j - min r.len j) := by
  obtain ⟨c₁, hc₁, hm₁⟩ := advance_eq h hc (min r.len j)
  refine ⟨c₁, hm₁, ?_⟩
  rw [fillLeft.eq_def p src mem c i j, if_neg h0, hr]
  simp only [hlen, if_false, hc₁]

/-- One piece of a write stores as many bytes as the current span has room for, and at least one. -/
theorem fillLeft_step (h : p.WellFormed) (hc : c.Valid p) (row : List UInt8) (i : Nat) (h0 : j ≠ 0)
    (hahead : c.ahead p ≠ []) :
    ∃ i₁ c₁, 0 < i₁ ∧ i₁ ≤ j ∧ i₁ ≤ (c.ahead p).length ∧ c.Moves p i₁ c₁ ∧
      fillLeft p (.bytes row) mem c i j =
        fillLeft p (.bytes row) (mem.storeAt ((c.ahead p).take i₁) ((row.drop i).take i₁)) c₁
          (i + i₁) (j - i₁) := by
  obtain ⟨r, hr, hstart, hnil⟩ := rest_eq h hc
  have hlen : r.len ≠ 0 := fun hlen => hahead (hnil.1 hlen)
  have hle := hstart.length_le
  rw [Span.length_addresses] at hle
  obtain ⟨c₁, hm₁, hstep⟩ := fillLeft_of_rest mem h hc hr hlen h0 (.bytes row) i
  have hstore : mem.store r.base ((row.drop i).take (min r.len j)) =
      mem.storeAt ((c.ahead p).take (min r.len j)) ((row.drop i).take (min r.len j)) := by
    rw [Span.take_of_prefix hstart (Nat.min_le_left ..),
      Memory.store_eq_storeAt (List.length_take_le ..)]
  rw [Source.piece_bytes, hstore] at hstep
  exact ⟨min r.len j, c₁, by omega, by omega, by omega, hm₁, hstep⟩

/-- **Writing** finds room for as many bytes as are ahead, and stores them at their addresses. -/
theorem fillLeft_eq (h : p.WellFormed) (hc : c.Valid p) (row : List UInt8) (i : Nat)
    (hrow : i + j ≤ row.length) :
    ∃ c', fillLeft p (.bytes row) mem c i j =
        .ok (j - (c.ahead p).length,
          mem.storeAt ((c.ahead p).take j) ((row.drop i).take (min j (c.ahead p).length)), c') ∧
      c.Moves p j c' := by
  -- every piece has a byte at least, so what is left to be written gets less
  induction j using Nat.strong_induction_on generalizing c mem i with
  | h j ih =>
      by_cases h0 : j = 0
      · subst h0
        refine ⟨c, ?_, hc.moves_zero⟩
        rw [fillLeft, if_pos rfl, Nat.zero_sub]
        rfl
      · by_cases hahead : c.ahead p = []
        · refine ⟨c, ?_, hc.moves_of_nil hahead j⟩
          rw [fillLeft_of_end mem h hc hahead, hahead, List.length_nil, Nat.min_zero, List.take_zero,
            Memory.storeAt_nil]
          rfl
        · obtain ⟨i₁, c₁, hpos, hle, hle', hm₁, hstep⟩ := fillLeft_step mem h hc row i h0 hahead
          obtain ⟨c₂, hc₂, hm₂⟩ := ih (j - i₁) (by omega)
            (mem.storeAt ((c.ahead p).take i₁) ((row.drop i).take i₁)) hm₁.valid (i + i₁) (by omega)
          have hsum : j = i₁ + (j - i₁) := by omega
          have htake : (c.ahead p).take j =
              (c.ahead p).take i₁ ++ (c₁.ahead p).take (j - i₁) := by
            rw [hm₁.ahead, ← List.take_add, ← hsum]
          have hmin : min j (c.ahead p).length = i₁ + min (j - i₁) (c₁.ahead p).length := by
            rw [hm₁.length_ahead]
            omega
          have hlength : ((c.ahead p).take i₁).length = ((row.drop i).take i₁).length := by
            rw [List.length_take, List.length_take, List.length_drop]
            omega
          refine ⟨c₂, ?_, hsum ▸ hm₁.trans hm₂⟩
          rw [hstep, hc₂, htake, hmin, List.take_add, Memory.storeAt_append hlength,
            hm₁.length_ahead, List.drop_drop]
          congr 2
          omega

/-- Writing a row of bytes stores as many of them as there is room for. -/
theorem write_eq (h : p.WellFormed) (hc : c.Valid p) (row : List UInt8) :
    ∃ c', c.write p mem row = .ok (min row.length (c.ahead p).length,
        mem.storeAt ((c.ahead p).take row.length) (row.take (min row.length (c.ahead p).length)),
        c') ∧
      c.Moves p row.length c' := by
  obtain ⟨c', hc', hm⟩ := fillLeft_eq mem h hc row 0 (Nat.zero_add _).le
  refine ⟨c', ?_, hm⟩
  rw [write, fill, hc', List.drop_zero, show min row.length (c.ahead p).length =
    row.length - (row.length - (c.ahead p).length) by omega]
  rfl

end ByteCursor

end SpanChain
