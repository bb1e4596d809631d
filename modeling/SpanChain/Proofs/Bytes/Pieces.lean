/-
**A copy goes piece by piece.**

A copy from one chain to another goes in pieces, and a piece ends where a span ends on either side.
It is read as a whole before it is written, so that a piece may overlap the place it is written to.
But what it writes is seen by the pieces behind it.

Main definitions:

* `SpanChain.Cell`, `SpanChain.ByteCursor.cells` — the bytes ahead of a cursor, each with its node;
* `SpanChain.ByteCursor.Heads` — the cells ahead begin with what is left of a span;
* `SpanChain.Lane`, `SpanChain.ByteCursor.lanes` — a byte that is copied, and those of a copy;
* `SpanChain.pieces` — where a row of them is cut;
* `SpanChain.Memory.moveAll`, `SpanChain.Memory.movePieces` — moving bytes all at once and piece by
  piece.

Main results:

* `SpanChain.ByteCursor.fillLeft_pieces` — a write from the memory itself goes in pieces that end
  where a span ends;
* `SpanChain.ByteCursor.copyTo_pieces` — **a copy comes to the memory that its pieces come to**, and
  both cursors move by the number of bytes that both sides have;
* `SpanChain.ByteCursor.copyTo_eq` — it stores at the next addresses of one side what it reads at
  those of the other.
-/

import Mathlib.Data.List.SplitBy
import SpanChain.Proofs.Bytes.Motion

set_option relaxedAutoImplicit false
set_option autoImplicit false

namespace SpanChain

variable {n m : Nat}

/-! ### Cells -/

/-- A byte of a chain. -/
structure Cell (n : Nat) where
  /-- The node that describes it. -/
  node : Fin n
  address : Address
  deriving DecidableEq, Repr

namespace Cell

/-- The cells of a node at `k` addresses from one on. -/
def row (x : Fin n) (a : Address) (k : Nat) : List (Cell n) :=
  (List.range k).map fun i => ⟨x, a + i⟩

variable {x : Fin n} {a : Address} {b : Cell n} {j k : Nat}

@[simp] theorem length_row : (row x a k).length = k := by simp [row]

theorem map_address_row : (row x a k).map address = (List.range k).map (a + ·) := List.map_map ..

theorem node_of_mem_row (hb : b ∈ row x a k) : b.node = x := by
  obtain ⟨i, -, rfl⟩ := List.mem_map.1 hb
  rfl

theorem row_add : row x a (j + k) = row x a j ++ row x (a + j) k := by
  rw [row, List.range_add, List.map_append, List.map_map]
  refine congrArg _ (List.map_congr_left fun i _ => ?_)
  simp only [Function.comp_apply, Address.add_add]

theorem take_row (h : j ≤ k) : (row x a k).take j = row x a j := by
  rw [row, ← List.map_take, List.take_range, Nat.min_eq_left h]
  rfl

theorem drop_row (x : Fin n) (a : Address) (j k : Nat) :
    (row x a k).drop j = row x (a + j) (k - j) := by
  by_cases h : j ≤ k
  · obtain ⟨i, rfl⟩ := Nat.exists_eq_add_of_le h
    rw [row_add, List.drop_left' length_row, Nat.add_sub_cancel_left]
  · rw [List.drop_eq_nil_of_le (by simp; omega), Nat.sub_eq_zero_of_le (by omega)]
    rfl

end Cell

namespace Pool

variable {p : Pool Span n m} {u : Row n} {b : Cell n}

/-- The cells that the nodes of a row describe, in order. -/
def rowCells (p : Pool Span n m) (u : Row n) : List (Cell n) :=
  u.flatMap fun x => Cell.row x (p.data x).base (p.len x)

theorem rowCells_cons (x : Fin n) (u : Row n) :
    p.rowCells (x :: u) = Cell.row x (p.data x).base (p.len x) ++ p.rowCells u := rfl

theorem rowCells_append (u v : Row n) : p.rowCells (u ++ v) = p.rowCells u ++ p.rowCells v :=
  List.flatMap_append

theorem map_address_rowCells : (p.rowCells u).map Cell.address = p.rowAddresses u := by
  rw [rowCells, List.map_flatMap]
  exact List.flatMap_congr fun x _ => Cell.map_address_row

theorem length_rowCells : (p.rowCells u).length = (p.rowAddresses u).length := by
  rw [← map_address_rowCells, List.length_map]

theorem node_mem_of_mem_rowCells (hb : b ∈ p.rowCells u) : b.node ∈ u := by
  obtain ⟨x, hx, hbx⟩ := List.mem_flatMap.1 hb
  rwa [Cell.node_of_mem_row hbx]

end Pool

namespace ByteCursor

variable {p : Pool Span n m} {c c' : ByteCursor n m} {j : Nat}

/-- The cells of the cursor's list from the cursor on. -/
def cells (p : Pool Span n m) (c : ByteCursor n m) : List (Cell n) :=
  (p.rowCells (p.members c.list)).drop (c.passed p).length

theorem map_address_cells (h : p.WellFormed) (hc : c.Valid p) :
    (c.cells p).map Cell.address = c.ahead p := by
  rw [cells, List.map_drop, Pool.map_address_rowCells, ← p.addresses_eq_rowAddresses,
    ← passed_append_ahead h hc, List.drop_left]

theorem length_cells (h : p.WellFormed) (hc : c.Valid p) :
    (c.cells p).length = (c.ahead p).length := by
  rw [← map_address_cells h hc, List.length_map]

/-- The two sides of a valid cursor have as many bytes as its list. -/
theorem length_passed (h : p.WellFormed) (hc : c.Valid p) :
    (c.passed p).length + (c.ahead p).length = (p.addresses c.list).length := by
  rw [← List.length_append, passed_append_ahead h hc]

theorem Moves.cells (h : p.WellFormed) (hc : c.Valid p) (hm : c.Moves p j c') :
    c'.cells p = (c.cells p).drop j := by
  have hlen := length_passed h hc
  have hlen' := length_passed h hm.valid
  rw [hm.length_ahead, hm.list] at hlen'
  rw [ByteCursor.cells, ByteCursor.cells, hm.list, List.drop_drop]
  by_cases hj : j ≤ (c.ahead p).length
  · congr 1
    omega
  · have hall : (p.rowCells (p.members c.list)).length = (p.addresses c.list).length := by
      rw [Pool.length_rowCells, p.addresses_eq_rowAddresses]
    rw [List.drop_eq_nil_of_le (by omega), List.drop_eq_nil_of_le (by omega)]

/-- What is ahead of a cursor begins with the span `r`, which is what is left of the span of the node
`x`.  The cells `w` come behind it. -/
structure Heads (p : Pool Span n m) (c : ByteCursor n m) (x : Fin n) (r : Span)
    (w : List (Cell n)) : Prop where
  rest : c.rest p = .ok r
  len : r.len ≠ 0
  cells : c.cells p = Cell.row x r.base r.len ++ w
  /-- The node describes no other cells. -/
  others : ∀ b ∈ w, b.node ≠ x

/-- In front of the end there is a span with bytes. -/
theorem exists_heads (h : p.WellFormed) (hc : c.Valid p) (hahead : c.ahead p ≠ []) :
    ∃ x r w, c.Heads p x r w := by
  obtain ⟨x, hx⟩ := Option.ne_none_iff_exists'.1 (mt (hc.ahead_eq_nil_iff h).2 hahead)
  obtain ⟨u, v, hs, hoff⟩ := hc.exists_cut h hx
  obtain ⟨r, hr⟩ : ∃ r, (p.data x).dropFirst c.offset = .ok r := ⟨_, if_pos hoff.le⟩
  obtain ⟨hbase, hlen⟩ := Span.of_dropFirst hr
  have hpos : c.offset < (p.data x).len := hoff
  refine ⟨x, r, p.rowCells v, by simp only [ByteCursor.rest, hx, hr], by omega, ?_, ?_⟩
  · have hpassed : (c.passed p).length = (p.rowCells u).length + c.offset := by
      rw [passed_eq h hs hx, List.length_append, List.length_take, Span.length_addresses,
        Nat.min_eq_left hpos.le, Pool.length_rowCells]
    rw [ByteCursor.cells, hs, hpassed, Pool.rowCells_append, Pool.rowCells_cons,
      List.drop_length_add_append,
      List.drop_append_of_le_length (by rw [Cell.length_row]; exact hoff.le), Cell.drop_row, hbase,
      hlen]
    rfl
  · intro b hb e
    exact h.apart.notMem_back hs (e ▸ Pool.node_mem_of_mem_rowCells hb)

namespace Heads

variable {x : Fin n} {r : Span} {w : List (Cell n)} {b : Cell n} {i : Nat}

theorem len_le (hx : c.Heads p x r w) (h : p.WellFormed) (hc : c.Valid p) :
    r.len ≤ (c.ahead p).length := by
  rw [← length_cells h hc, hx.cells, List.length_append, Cell.length_row]
  omega

theorem take_cells (hx : c.Heads p x r w) (hj : j ≤ r.len) :
    (c.cells p).take j = Cell.row x r.base j := by
  rw [hx.cells, List.take_append_of_le_length (by rwa [Cell.length_row]), Cell.take_row hj]

/-- Of the next `j` cells, those behind the span are on other nodes. -/
theorem node_ne (hx : c.Heads p x r w) (hi : i ≤ j - min r.len j)
    (hb : b ∈ ((c.cells p).drop (min r.len j)).take i) : b.node ≠ x := by
  by_cases hlen : r.len ≤ j
  · rw [hx.cells, Nat.min_eq_left hlen, List.drop_left' Cell.length_row] at hb
    exact hx.others b (List.mem_of_mem_take hb)
  · rw [show i = 0 by omega, List.take_zero] at hb
    contradiction

end Heads

end ByteCursor

/-! ### Moving bytes in pieces -/

/-- A byte that is copied: the cell that it is read from, and the one that it is written to. -/
abbrev Lane (n : Nat) := Cell n × Cell n

/-- The pieces of a row of bytes that are copied.  A piece ends where the next byte is read from
another node, or written to another node. -/
def pieces (z : List (Lane n)) : List (List (Lane n)) :=
  z.splitBy fun a b => a.1.node == b.1.node && a.2.node == b.2.node

section Pieces

variable {z w : List (Lane n)} {src dst : List (Cell n)} {x y : Fin n}

theorem map_src_zip (h : src.length = dst.length) :
    (src.zip dst).map (fun a => a.1.address) = src.map Cell.address := by
  nth_rewrite 2 [← List.map_fst_zip h.le]
  rw [List.map_map]
  rfl

theorem map_dst_zip (h : src.length = dst.length) :
    (src.zip dst).map (fun a => a.2.address) = dst.map Cell.address := by
  nth_rewrite 2 [← List.map_snd_zip h.ge]
  rw [List.map_map]
  rfl

/-- A piece ends between two rows: no byte of the second is copied from and to the same nodes as one
of the first. -/
def CutBetween (z w : List (Lane n)) : Prop :=
  ∀ a ∈ z, ∀ b ∈ w, a.1.node = b.1.node → a.2.node ≠ b.2.node

@[simp] theorem flatten_pieces : (pieces z).flatten = z := List.flatten_splitBy ..

theorem pieces_append (h : CutBetween z w) : pieces (z ++ w) = pieces z ++ pieces w := by
  refine List.splitBy_append fun a ha b hb => ?_
  have hab := h a (List.mem_of_getLast? ha) b (List.mem_of_head? hb)
  simpa using hab

/-- From one node to another there is one piece. -/
theorem pieces_rows {a b : Address} {k : Nat} (hk : k ≠ 0) :
    pieces ((Cell.row x a k).zip (Cell.row y b k)) = [(Cell.row x a k).zip (Cell.row y b k)] := by
  refine List.splitBy_of_isChain ?_ (List.Pairwise.isChain ?_)
  · rw [← List.length_pos_iff, List.length_zip, Cell.length_row, Cell.length_row]
    omega
  · refine List.pairwise_of_forall_mem_list fun c hc d hd => ?_
    obtain ⟨hc₁, hc₂⟩ := List.of_mem_zip hc
    obtain ⟨hd₁, hd₂⟩ := List.of_mem_zip hd
    simp [Cell.node_of_mem_row hc₁, Cell.node_of_mem_row hc₂, Cell.node_of_mem_row hd₁,
      Cell.node_of_mem_row hd₂]

end Pieces

namespace Memory

variable {mem : Memory} {z w : List (Lane n)}

/-- The memory after bytes have been copied, all of them read before any is written. -/
def moveAll (mem : Memory) (z : List (Lane n)) : Memory :=
  mem.storeAt (z.map fun a => a.2.address) ((z.map fun a => a.1.address).map mem.get)

/-- The memory after bytes have been copied piece by piece. -/
def movePieces (mem : Memory) (z : List (Lane n)) : Memory :=
  (pieces z).foldl moveAll mem

theorem movePieces_append (h : CutBetween z w) :
    mem.movePieces (z ++ w) = (mem.movePieces z).movePieces w := by
  rw [movePieces, pieces_append h, List.foldl_append]
  rfl

theorem movePieces_rows (x y : Fin n) (a b : Address) (k : Nat) :
    mem.movePieces ((Cell.row x a k).zip (Cell.row y b k)) = mem.store b (mem.load a k) := by
  by_cases hk : k = 0
  · subst hk
    rfl
  · have hlen : (Cell.row x a k).length = (Cell.row y b k).length := by simp
    rw [movePieces, pieces_rows hk, List.foldl_cons, List.foldl_nil, moveAll, map_src_zip hlen,
      map_dst_zip hlen, Cell.map_address_row, Cell.map_address_row, ← load_eq_map,
      store_eq_storeAt (length_load ..).le]

/-- What is stored row by row was fetched from the addresses that are read. -/
theorem exists_foldl_moveAll (mem : Memory) (gs : List (List (Lane n))) :
    ∃ bs, gs.foldl moveAll mem = mem.storeAt (gs.flatten.map fun a => a.2.address) bs ∧
      mem.Fetched (gs.flatten.map fun a => a.1.address) (gs.flatten.map fun a => a.2.address) bs := by
  induction gs generalizing mem with
  | nil => exact ⟨[], rfl, fetched_map⟩
  | cons z gs ih =>
      obtain ⟨bs, hbs, hfetched⟩ := ih (mem.moveAll z)
      refine ⟨(z.map fun a => a.1.address).map mem.get ++ bs, ?_, ?_⟩
      · rw [List.foldl_cons, hbs, List.flatten_cons, List.map_append, storeAt_append (by simp)]
        rfl
      · rw [List.flatten_cons, List.map_append, List.map_append]
        exact fetched_map.append hfetched

theorem exists_movePieces (mem : Memory) (z : List (Lane n)) :
    ∃ bs, mem.movePieces z = mem.storeAt (z.map fun a => a.2.address) bs ∧
      mem.Fetched (z.map fun a => a.1.address) (z.map fun a => a.2.address) bs := by
  have h := exists_foldl_moveAll mem (pieces z)
  rwa [flatten_pieces] at h

end Memory

namespace ByteCursor

variable {p : Pool Span n m} {c c' d d' : ByteCursor n m} {j k : Nat} (mem : Memory)

/-! ### A copy goes piece by piece -/

/-- The next `k` bytes of two cursors, side by side. -/
def lanes (p : Pool Span n m) (c d : ByteCursor n m) (k : Nat) : List (Lane n) :=
  ((c.cells p).take k).zip ((d.cells p).take k)

theorem length_take_cells (h : p.WellFormed) (hc : c.Valid p) (hk : k ≤ (c.ahead p).length) :
    ((c.cells p).take k).length = k := by
  rw [List.length_take, length_cells h hc, Nat.min_eq_left hk]

theorem map_src_lanes (h : p.WellFormed) (hc : c.Valid p) (hd : d.Valid p)
    (hk : k ≤ (c.ahead p).length) (hk' : k ≤ (d.ahead p).length) :
    (lanes p c d k).map (fun a => a.1.address) = (c.ahead p).take k := by
  have hlen := (length_take_cells h hc hk).trans (length_take_cells h hd hk').symm
  rw [lanes, map_src_zip hlen, List.map_take, map_address_cells h hc]

theorem map_dst_lanes (h : p.WellFormed) (hc : c.Valid p) (hd : d.Valid p)
    (hk : k ≤ (c.ahead p).length) (hk' : k ≤ (d.ahead p).length) :
    (lanes p c d k).map (fun a => a.2.address) = (d.ahead p).take k := by
  have hlen := (length_take_cells h hc hk).trans (length_take_cells h hd hk').symm
  rw [lanes, map_dst_zip hlen, List.map_take, map_address_cells h hd]

theorem lanes_add (h : p.WellFormed) (hc : c.Valid p) (hd : d.Valid p) (hmc : c.Moves p j c')
    (hmd : d.Moves p j d') (hj : j ≤ (c.ahead p).length) (hj' : j ≤ (d.ahead p).length) :
    lanes p c d (j + k) = lanes p c d j ++ lanes p c' d' k := by
  have hlen := (length_take_cells h hc hj).trans (length_take_cells h hd hj').symm
  rw [lanes, List.take_add, List.take_add, List.zip_append hlen, ← hmc.cells h hc,
    ← hmd.cells h hd]
  rfl

/-- A write from the memory itself goes in pieces that end where a span ends. -/
theorem fillLeft_pieces (h : p.WellFormed) (hd : d.Valid p) (x : Fin n) (a : Address) (i j : Nat) :
    ∃ d' moved, moved = min j (d.ahead p).length ∧ d.Moves p moved d' ∧
      fillLeft p (.region a) mem d i j =
        .ok (j - moved,
          mem.movePieces ((Cell.row x (a + i) moved).zip ((d.cells p).take moved)), d') := by
  induction j using Nat.strong_induction_on generalizing d mem i with
  | h j ih =>
      by_cases hend : j = 0 ∨ d.ahead p = []
      · have hzero : min j (d.ahead p).length = 0 := by
          rcases hend with rfl | hnil
          · exact Nat.zero_min _
          · rw [hnil, List.length_nil, Nat.min_zero]
        refine ⟨d, 0, hzero.symm, hd.moves_zero, ?_⟩
        rcases hend with rfl | hnil
        · rw [fillLeft, if_pos rfl]
          rfl
        · rw [fillLeft_of_end mem h hd hnil]
          rfl
      · obtain ⟨h0, hahead⟩ := not_or.1 hend
        obtain ⟨y, r, w, hy⟩ := exists_heads h hd hahead
        have hlen := hy.len
        have hle := hy.len_le h hd
        obtain ⟨d₁, hm₁, hstep⟩ := fillLeft_of_rest mem h hd hy.rest hlen h0 (.region a) i
        obtain ⟨d', moved, hmoved, hm, hfill⟩ := ih (j - min r.len j) (by omega)
          (mem.store r.base (mem.load (a + i) (min r.len j))) hm₁.valid (i + min r.len j)
        rw [hm₁.length_ahead] at hmoved
        refine ⟨d', min r.len j + moved, by omega, hm₁.trans hm, ?_⟩
        -- behind the piece the node is another one, or nothing is left
        have hcut : CutBetween
            ((Cell.row x (a + i) (min r.len j)).zip (Cell.row y r.base (min r.len j)))
            ((Cell.row x (a + i + min r.len j) moved).zip
              (((d.cells p).drop (min r.len j)).take moved)) := by
          intro u hu v hv _ e
          refine hy.node_ne (by omega) (List.of_mem_zip hv).2 ?_
          rw [← e, Cell.node_of_mem_row (List.of_mem_zip hu).2]
        rw [hstep, Source.piece_region, hfill, ← Address.add_add, hm₁.cells h hd, Cell.row_add,
          List.take_add, hy.take_cells (Nat.min_le_left ..), List.zip_append (by simp),
          Memory.movePieces_append hcut, Memory.movePieces_rows, Nat.sub_sub]

/-- A piece of the current span is copied as far as there is room for it, in pieces that end where a
span ends on the other side. -/
theorem fill_pieces (h : p.WellFormed) (hd : d.Valid p) (x : Fin n) (a : Address) (j : Nat) :
    ∃ d' moved, moved = min j (d.ahead p).length ∧ d.Moves p moved d' ∧
      fill p (.region a) mem d j =
        .ok (moved, mem.movePieces ((Cell.row x a moved).zip ((d.cells p).take moved)), d') := by
  obtain ⟨d', moved, hmoved, hm, hfill⟩ := fillLeft_pieces mem h hd x a 0 j
  refine ⟨d', moved, hmoved, hm, ?_⟩
  have hcount : j - (j - moved) = moved := by omega
  rw [fill, hfill, Address.add_zero]
  simp only [bind, Except.bind, hcount, pure, Except.pure]

/-- **A copy goes in pieces that end where a span ends on either side.** -/
theorem copyLeft_pieces (h : p.WellFormed) (hc : c.Valid p) (hd : d.Valid p) (j : Nat) :
    ∃ c' d' moved, moved = min j (min (c.ahead p).length (d.ahead p).length) ∧
      c.Moves p moved c' ∧ d.Moves p moved d' ∧
      copyLeft p mem c d j = .ok (j - moved, mem.movePieces (lanes p c d moved), c', d') := by
  induction j using Nat.strong_induction_on generalizing c d mem with
  | h j ih =>
      by_cases h0 : j = 0
      · subst h0
        refine ⟨c, d, 0, (Nat.zero_min _).symm, hc.moves_zero, hd.moves_zero, ?_⟩
        rw [copyLeft, if_pos rfl]
        rfl
      · by_cases hahead : c.ahead p = []
        · obtain ⟨r, hr, -, hnil⟩ := rest_eq h hc
          refine ⟨c, d, 0, by simp [hahead], hc.moves_zero, hd.moves_zero, ?_⟩
          rw [copyLeft.eq_def p mem c d j, if_neg h0, hr]
          simp only [hnil.2 hahead, if_true]
          rfl
        · obtain ⟨x, r, w, hx⟩ := exists_heads h hc hahead
          have hlen := hx.len
          have hle := hx.len_le h hc
          have hunfold := copyLeft.eq_def p mem c d j
          rw [if_neg h0, hx.rest] at hunfold
          obtain ⟨d₁, moved₁, hmoved₁, hmd, hfill⟩ :=
            fill_pieces mem h hd x r.base (min r.len j)
          obtain ⟨c₁, hc₁, hmc⟩ := advance_eq h hc moved₁
          have hpiece := hx.take_cells (j := moved₁) (by omega)
          rw [← hpiece] at hfill
          change _ = Except.ok (_, mem.movePieces (lanes p c d moved₁), _) at hfill
          -- the other side may end within this piece, and then the copy does too
          by_cases hshort : moved₁ < min r.len j
          · refine ⟨c₁, d₁, moved₁, by omega, hmc, hmd, ?_⟩
            rw [hunfold]
            simp only [hlen, if_false, hfill, hc₁, if_pos hshort]
          · have hwhole : min r.len j = moved₁ := by omega
            obtain ⟨c', d', moved₂, hmoved₂, hmc₂, hmd₂, hrec⟩ :=
              ih (j - moved₁) (by omega) (mem.movePieces (lanes p c d moved₁)) hmc.valid hmd.valid
            rw [hmc.length_ahead, hmd.length_ahead] at hmoved₂
            refine ⟨c', d', moved₁ + moved₂, by omega, hmc.trans hmc₂, hmd.trans hmd₂, ?_⟩
            have hcut : CutBetween (lanes p c d moved₁) (lanes p c₁ d₁ moved₂) := by
              intro u hu v hv e
              have hu₁ := (List.of_mem_zip hu).1
              have hv₁ := (List.of_mem_zip hv).1
              rw [hpiece] at hu₁
              rw [hmc.cells h hc, ← hwhole] at hv₁
              refine absurd ?_ (hx.node_ne (by omega) hv₁)
              rw [← e, Cell.node_of_mem_row hu₁]
            rw [hwhole] at hfill
            rw [lanes_add h hc hd hmc hmd (by omega) (by omega), Memory.movePieces_append hcut,
              hunfold, Nat.sub_add_eq]
            simp only [hlen, if_false, hwhole, hfill, hc₁, Nat.lt_irrefl, hrec]

theorem copyTo_pieces (h : p.WellFormed) (hc : c.Valid p) (hd : d.Valid p) (j : Nat) :
    ∃ c' d' moved, moved = min j (min (c.ahead p).length (d.ahead p).length) ∧
      c.Moves p moved c' ∧ d.Moves p moved d' ∧
      copyTo p mem c d j = .ok (moved, mem.movePieces (lanes p c d moved), c', d') := by
  obtain ⟨c', d', moved, hmoved, hmc, hmd, hcopy⟩ := copyLeft_pieces mem h hc hd j
  refine ⟨c', d', moved, hmoved, hmc, hmd, ?_⟩
  have hcount : j - (j - moved) = moved := by omega
  rw [copyTo, hcopy]
  simp only [bind, Except.bind, hcount, pure, Except.pure]

/-- **Copying** stores at the next addresses of one side what it reads at those of the other. -/
theorem copyTo_eq (h : p.WellFormed) (hc : c.Valid p) (hd : d.Valid p) (j : Nat) :
    ∃ bs c' d' moved, copyTo p mem c d j =
        .ok (moved, mem.storeAt ((d.ahead p).take moved) bs, c', d') ∧
      moved = min j (min (c.ahead p).length (d.ahead p).length) ∧
      c.Moves p moved c' ∧ d.Moves p moved d' ∧
      mem.Fetched ((c.ahead p).take moved) ((d.ahead p).take moved) bs := by
  obtain ⟨c', d', moved, hmoved, hmc, hmd, hcopy⟩ := copyTo_pieces mem h hc hd j
  obtain ⟨bs, hbs, hfetched⟩ := mem.exists_movePieces (lanes p c d moved)
  rw [map_src_lanes h hc hd (by omega) (by omega), map_dst_lanes h hc hd (by omega) (by omega)]
    at hfetched
  rw [map_dst_lanes h hc hd (by omega) (by omega)] at hbs
  exact ⟨bs, c', d', moved, hbs ▸ hcopy, hmoved, hmc, hmd, hfetched⟩

end ByteCursor

end SpanChain
