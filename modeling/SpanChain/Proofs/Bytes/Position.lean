/-
**Places between the bytes of a chain.**

A byte cursor cuts the addresses that its list describes in two: those it has passed and those ahead
of it.  A cursor is valid if it has finished, or stands on a member of its list with a byte of the
member's span ahead.

Main definitions:

* `SpanChain.Pool.rowAddresses` — the addresses that a row of nodes describes;
* `SpanChain.ByteCursor.Valid` — a cursor is where a walk can have brought it;
* `SpanChain.ByteCursor.passed`, `SpanChain.ByteCursor.ahead` — the addresses on its two sides.

Main results:

* `SpanChain.ByteCursor.passed_append_ahead` — the two sides make up the chain;
* `SpanChain.Pool.Represents.skipEmpty_eq` — stepping over empty spans stops at the first node with
  bytes;
* `SpanChain.ByteCursor.Valid.eq_of_length_ahead` — valid cursors of one list with equally many bytes
  ahead are equal;
* `SpanChain.ByteCursor.valid_arrive`, `SpanChain.ByteCursor.ahead_arrive` — a cursor that arrives at
  a cut of its row is valid, with the right side of the cut ahead.
-/

import SpanChain.Buffer.ByteCursor
import SpanChain.Proofs.Rows.Way

set_option relaxedAutoImplicit false
set_option autoImplicit false

namespace SpanChain

variable {n m : Nat}

/-! ### The addresses of a row -/

namespace Pool

variable {p q : Pool Span n m} {s : Rows n m} {l : Fin m} {a : Option (Fin n)} {u v : Row n}
  {x : Fin n}

/-- The byte addresses that the nodes of a row describe, in order. -/
def rowAddresses (p : Pool Span n m) (u : Row n) : List Address :=
  u.flatMap fun x => (p.data x).addresses

@[simp] theorem rowAddresses_nil : p.rowAddresses [] = [] := rfl

@[simp] theorem rowAddresses_cons :
    p.rowAddresses (x :: u) = (p.data x).addresses ++ p.rowAddresses u := rfl

@[simp] theorem rowAddresses_append :
    p.rowAddresses (u ++ v) = p.rowAddresses u ++ p.rowAddresses v := by
  simp [rowAddresses]

/-- A node describes as many addresses as its span is long. -/
theorem length_addresses_data (p : Pool Span n m) (x : Fin n) :
    (p.data x).addresses.length = p.len x :=
  Span.length_addresses _

theorem length_drop_addresses (p : Pool Span n m) (x : Fin n) (i : Nat) :
    ((p.data x).addresses.drop i).length = p.len x - i := by
  rw [List.length_drop, p.length_addresses_data]

theorem rowAddresses_congr (h : ∀ x ∈ u, q.data x = p.data x) :
    q.rowAddresses u = p.rowAddresses u :=
  List.flatMap_congr fun x hx => by rw [h x hx]

theorem addresses_eq_rowAddresses (p : Pool Span n m) (l : Fin m) :
    p.addresses l = p.rowAddresses (p.members l) := by
  rw [addresses, spans, values, List.flatMap_map]
  rfl

theorem Represents.addresses_eq (h : p.Represents s) (l : Fin m) :
    p.addresses l = p.rowAddresses (s l) := by
  rw [addresses_eq_rowAddresses, h.members_eq]

/-! ### Stepping over empty spans -/

/-- The nodes of a row from the first one with bytes on. -/
def skipped (p : Pool Span n m) (u : Row n) : Row n := u.dropWhile fun x => p.len x = 0

theorem skipped_cons_of_pos (hx : 0 < p.len x) : p.skipped (x :: u) = x :: u := by
  simp [skipped, Nat.ne_of_gt hx]

theorem skipped_cons_of_zero (hx : p.len x = 0) : p.skipped (x :: u) = p.skipped u := by
  simp [skipped, hx]

/-- Nodes without bytes describe nothing. -/
theorem rowAddresses_skipped (p : Pool Span n m) (u : Row n) :
    p.rowAddresses (p.skipped u) = p.rowAddresses u := by
  induction u with
  | nil => rfl
  | cons x u ih =>
      by_cases hx : p.len x = 0
      · have hnil : (p.data x).addresses = [] := by
          rw [← List.length_eq_zero_iff, p.length_addresses_data]
          exact hx
        rw [skipped_cons_of_zero hx, ih, rowAddresses_cons, hnil, List.nil_append]
      · rw [skipped_cons_of_pos (Nat.pos_of_ne_zero hx)]

theorem len_pos_of_skipped (h : p.skipped u = x :: v) : 0 < p.len x := by
  induction u with
  | nil => simp [skipped] at h
  | cons y u ih =>
      by_cases hy : p.len y = 0
      · exact ih (skipped_cons_of_zero hy ▸ h)
      · rw [skipped_cons_of_pos (Nat.pos_of_ne_zero hy)] at h
        exact (List.cons.inj h).1 ▸ Nat.pos_of_ne_zero hy

/-- Along a way, stepping over empty spans stops at the first node with bytes. -/
theorem Way.skipEmptyWithin_eq (h : p.Way .forward a u) {j : Nat} (hj : u.length ≤ j + 1) :
    p.skipEmptyWithin j a = (p.skipped u).head? := by
  induction u generalizing a j with
  | nil =>
      obtain rfl := h
      cases j <;> rfl
  | cons x u ih =>
      obtain ⟨rfl, hway⟩ := h
      by_cases hlen : p.len x = 0
      · rw [skipped_cons_of_zero hlen]
        cases j with
        | zero =>
            -- the last step allowed stands on the last node
            have hu : u = [] := by simpa using hj
            simp [skipEmptyWithin, hlen, hu, skipped]
        | succ j =>
            rw [skipEmptyWithin, if_pos hlen]
            exact ih hway (by simpa using hj)
      · rw [skipped_cons_of_pos (Nat.pos_of_ne_zero hlen), List.head?_cons]
        cases j <;> simp [skipEmptyWithin, hlen]

theorem Way.skipEmpty_eq (h : p.Way .forward a u) : p.skipEmpty a = (p.skipped u).head? :=
  h.skipEmptyWithin_eq (h.length_le.trans (Nat.le_succ n))

/-- **Stepping over empty spans stops at the first node with bytes** behind a cut of a row. -/
theorem Represents.skipEmpty_eq (h : p.Represents s) (hs : s l = u ++ v) :
    p.skipEmpty v.head? = (p.skipped v).head? :=
  (h.way_forward hs).skipEmpty_eq

end Pool

/-! ### Cursors between bytes -/

namespace ByteCursor

variable {p : Pool Span n m} {s : Rows n m} {c : ByteCursor n m} {l : Fin m} {u v : Row n}
  {x : Fin n}

/-- The cursor has finished, or stands on a member of its list in front of one of the bytes of the
member's span. -/
def Valid (p : Pool Span n m) (c : ByteCursor n m) : Prop :=
  (c.node = none ∧ c.offset = 0) ∨
    ∃ x ∈ p.members c.list, c.node = some x ∧ c.offset < p.len x

instance (p : Pool Span n m) (c : ByteCursor n m) : Decidable (c.Valid p) :=
  inferInstanceAs (Decidable ((c.node = none ∧ c.offset = 0) ∨
    ∃ x ∈ p.members c.list, c.node = some x ∧ c.offset < p.len x))

/-- The byte addresses of the cursor's list in front of the cursor. -/
def passed (p : Pool Span n m) (c : ByteCursor n m) : List Address :=
  match c.node with
  | some x => p.rowAddresses (Row.front x (p.members c.list)) ++
      (p.data x).addresses.take c.offset
  | none => p.addresses c.list

/-- The byte addresses of the cursor's list from the cursor on. -/
def ahead (p : Pool Span n m) (c : ByteCursor n m) : List Address :=
  match c.node with
  | some x => (p.data x).addresses.drop c.offset ++
      p.rowAddresses (Row.back x (p.members c.list)).tail
  | none => []

/-- A valid cursor that has not finished stands at a node of its row. -/
theorem Valid.exists_cut (h : p.Represents s) (hc : c.Valid p) (hx : c.node = some x) :
    ∃ u v, s c.list = u ++ x :: v ∧ c.offset < p.len x := by
  rcases hc with ⟨hnode, -⟩ | ⟨y, hy, hnode, hlt⟩
  · rw [hx] at hnode
    contradiction
  · obtain rfl : x = y := Option.some.inj (hx.symm.trans hnode)
    rw [h.members_eq] at hy
    obtain ⟨u, v, hs, -⟩ := Row.exists_eq_append_cons hy
    exact ⟨u, v, hs, hlt⟩

theorem Valid.offset_eq_zero (hc : c.Valid p) (hx : c.node = none) : c.offset = 0 := by
  rcases hc with ⟨-, h0⟩ | ⟨y, -, hnode, -⟩
  · exact h0
  · rw [hx] at hnode
    contradiction

theorem valid_of_cut (h : p.Represents s) (hs : s c.list = u ++ x :: v) (hx : c.node = some x)
    (hlt : c.offset < p.len x) : c.Valid p :=
  .inr ⟨x, by rw [h.members_eq, hs]; simp, hx, hlt⟩

theorem passed_eq (h : p.Represents s) (hs : s c.list = u ++ x :: v) (hx : c.node = some x) :
    c.passed p = p.rowAddresses u ++ (p.data x).addresses.take c.offset := by
  have hu : x ∉ u := h.apart.notMem_front hs
  simp only [passed, hx]
  rw [h.members_eq, hs, Row.front_append_cons hu]

theorem ahead_eq (h : p.Represents s) (hs : s c.list = u ++ x :: v) (hx : c.node = some x) :
    c.ahead p = (p.data x).addresses.drop c.offset ++ p.rowAddresses v := by
  have hu : x ∉ u := h.apart.notMem_front hs
  simp only [ahead, hx]
  rw [h.members_eq, hs, Row.back_append_cons hu, List.tail_cons]

theorem length_ahead_eq (h : p.Represents s) (hs : s c.list = u ++ x :: v) (hx : c.node = some x) :
    (c.ahead p).length = p.len x - c.offset + (p.rowAddresses v).length := by
  rw [ahead_eq h hs hx, List.length_append, p.length_drop_addresses]

theorem passed_of_none (hx : c.node = none) : c.passed p = p.addresses c.list := by
  simp only [passed, hx]

theorem ahead_of_none (hx : c.node = none) : c.ahead p = [] := by
  simp only [ahead, hx]

/-- The two sides of a cursor on a member make up its chain, wherever its offset is. -/
theorem passed_append_ahead_of_cut (h : p.Represents s) (hs : s c.list = u ++ x :: v)
    (hx : c.node = some x) : c.passed p ++ c.ahead p = p.addresses c.list := by
  rw [passed_eq h hs hx, ahead_eq h hs hx, h.addresses_eq, hs, Pool.rowAddresses_append,
    Pool.rowAddresses_cons, List.append_assoc, ← List.append_assoc (List.take _ _),
    List.take_append_drop]

/-- **The two sides of a valid cursor make up its chain.** -/
theorem passed_append_ahead (h : p.WellFormed) (hc : c.Valid p) :
    c.passed p ++ c.ahead p = p.addresses c.list := by
  cases hx : c.node with
  | none => rw [passed_of_none hx, ahead_of_none hx, List.append_nil]
  | some x =>
      obtain ⟨u, v, hs, -⟩ := hc.exists_cut h hx
      exact passed_append_ahead_of_cut h hs hx

theorem ahead_suffix (h : p.WellFormed) (hc : c.Valid p) : c.ahead p <:+ p.addresses c.list :=
  ⟨c.passed p, passed_append_ahead h hc⟩

theorem Valid.ahead_eq_nil_iff (h : p.Represents s) (hc : c.Valid p) :
    c.ahead p = [] ↔ c.node = none := by
  constructor
  · intro hnil
    cases hx : c.node with
    | none => rfl
    | some x =>
        obtain ⟨u, v, hs, hlt⟩ := hc.exists_cut h hx
        have hlen := congrArg List.length hnil
        rw [length_ahead_eq h hs hx, List.length_nil] at hlen
        omega
  · exact ahead_of_none

/-- A valid cursor has finished exactly if no byte is ahead. -/
theorem Valid.isActive_eq_false_iff (h : p.WellFormed) (hc : c.Valid p) :
    c.isActive = false ↔ c.ahead p = [] := by
  rw [hc.ahead_eq_nil_iff h, isActive, Option.isSome_eq_false_iff, Option.isNone_iff_eq_none]

/-! ### One cursor for each place -/

/-- Of two nodes of a row, the one further on has fewer bytes from one of its own on. -/
theorem eq_of_length_from {y : Fin n} {w v' : Row n} {i j : Nat} (hw : x :: v = w ++ y :: v')
    (hi : i < p.len x) (hj : j < p.len y)
    (hlen : p.len x - i + (p.rowAddresses v).length =
      p.len y - j + (p.rowAddresses v').length) : x = y ∧ i = j := by
  cases w with
  | nil =>
      obtain ⟨rfl, rfl⟩ := List.cons.inj hw
      exact ⟨rfl, by omega⟩
  | cons z w =>
      have hv : v = w ++ y :: v' := (List.cons.inj hw).2
      rw [hv, Pool.rowAddresses_append, Pool.rowAddresses_cons, List.length_append,
        List.length_append, p.length_addresses_data] at hlen
      omega

/-- **Valid cursors of one list with equally many bytes ahead are equal.** -/
theorem Valid.eq_of_length_ahead {e : ByteCursor n m} (h : p.WellFormed) (hc : c.Valid p)
    (he : e.Valid p) (hlist : c.list = e.list)
    (hlen : (c.ahead p).length = (e.ahead p).length) : c = e := by
  suffices hsame : c.node = e.node ∧ c.offset = e.offset by
    obtain ⟨⟨l, a⟩, i⟩ := c
    obtain ⟨⟨l', a'⟩, i'⟩ := e
    obtain ⟨rfl, rfl⟩ : a = a' ∧ i = i' := hsame
    obtain rfl : l = l' := hlist
    rfl
  cases hx : c.node with
  | none =>
      rw [ahead_of_none hx, List.length_nil, eq_comm, List.length_eq_zero_iff,
        he.ahead_eq_nil_iff h] at hlen
      exact ⟨hlen.symm, by rw [hc.offset_eq_zero hx, he.offset_eq_zero hlen]⟩
  | some x =>
      cases hy : e.node with
      | none =>
          rw [ahead_of_none hy, List.length_nil, List.length_eq_zero_iff, hc.ahead_eq_nil_iff h,
            hx] at hlen
          contradiction
      | some y =>
          obtain ⟨u, v, hs, hi⟩ := hc.exists_cut h hx
          obtain ⟨u', v', hs', hj⟩ := he.exists_cut h hy
          rw [length_ahead_eq h hs hx, length_ahead_eq h hs' hy] at hlen
          -- one of the two nodes comes first, unless they are the same
          have hrow : u ++ x :: v = u' ++ y :: v' := by rw [← hs, hlist, hs']
          rcases List.append_eq_append_iff.1 hrow with ⟨w, -, hw⟩ | ⟨w, -, hw⟩
          · obtain ⟨rfl, hoff⟩ := eq_of_length_from hw hi hj hlen
            exact ⟨rfl, hoff⟩
          · obtain ⟨rfl, hoff⟩ := eq_of_length_from hw hj hi hlen.symm
            exact ⟨rfl, hoff.symm⟩

/-! ### Arriving -/

/-- A cursor that arrives behind a cut of a row is valid. -/
theorem valid_arrive (h : p.Represents s) (hs : s l = u ++ v) : (arrive p l v.head?).Valid p := by
  have hskip := h.skipEmpty_eq hs
  cases hv : p.skipped v with
  | nil =>
      rw [hv] at hskip
      exact .inl ⟨hskip, rfl⟩
  | cons x w =>
      rw [hv] at hskip
      have hmem : x ∈ s l := by
        have hsuffix : p.skipped v <:+ v := List.dropWhile_suffix _
        rw [hs]
        exact List.mem_append_right _ (hsuffix.subset (by simp [hv]))
      exact .inr ⟨x, by rw [h.members_eq]; exact hmem, hskip, Pool.len_pos_of_skipped hv⟩

/-- A cursor that arrives behind a cut of a row has the right side of the cut ahead. -/
theorem ahead_arrive (h : p.Represents s) (hs : s l = u ++ v) :
    (arrive p l v.head?).ahead p = p.rowAddresses v := by
  have hskip := h.skipEmpty_eq hs
  rw [← Pool.rowAddresses_skipped]
  cases hv : p.skipped v with
  | nil =>
      rw [hv] at hskip
      exact ahead_of_none hskip
  | cons x w =>
      rw [hv] at hskip
      obtain ⟨t, ht⟩ : p.skipped v <:+ v := List.dropWhile_suffix _
      have hs' : s l = (u ++ t) ++ x :: w := by rw [hs, ← ht, hv, List.append_assoc]
      exact ahead_eq h hs' hskip

theorem valid_start (h : p.WellFormed) (l : Fin m) : (start p l).Valid p := by
  rw [start, h.first_eq]
  exact valid_arrive h (u := []) rfl

theorem ahead_start (h : p.WellFormed) (l : Fin m) : (start p l).ahead p = p.addresses l := by
  rw [start, h.first_eq, h.addresses_eq]
  exact ahead_arrive h (u := []) rfl

end ByteCursor

end SpanChain
