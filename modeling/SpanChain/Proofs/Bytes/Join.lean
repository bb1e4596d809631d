/-
**Joining chains and spans.**

Appending puts a cursor where the two chains meet.  Joining a span to the one in front of it takes
the node of the second off its list, and the cursor stays at the same byte.  It is done exactly where
the first span ends at the address where the second starts.

Main definitions:

* `SpanChain.ByteCursor.Adjoins` — the cursor's span meets the one in front of it;
* `SpanChain.ByteCursor.Joined` — what joining the two leads to;
* `SpanChain.ByteCursor.Joins` — what joining leads to, whether or not there was anything to join.

Main results:

* `SpanChain.Span.addresses_join` — two spans that meet describe what one span over both does;
* `SpanChain.ByteCursor.valid_seam`, `SpanChain.ByteCursor.ahead_seam` — the cursor where two chains
  meet;
* `SpanChain.ByteCursor.joinBack_of_adjoins` — spans that meet are joined;
* `SpanChain.ByteCursor.joinBack_eq` — **joining keeps every list's addresses and the cursor's
  place among them**;
* `SpanChain.joins_exactly_where_spans_meet` — **it is done exactly where spans meet**, and changes
  nothing elsewhere.
-/

import SpanChain.Buffer.Reshape
import SpanChain.Proofs.Bytes.Motion
import SpanChain.Proofs.Rows.Frame

set_option relaxedAutoImplicit false
set_option autoImplicit false

namespace SpanChain

variable {n m : Nat}

/-- Two spans that meet describe what one span over both does. -/
theorem Span.addresses_join {a b : Span} (h : a.meets b = true)
    (hlt : a.len + b.len < sizeLimit) :
    (⟨a.base, a.len + b.len, hlt⟩ : Span).addresses = a.addresses ++ b.addresses := by
  have hbase : b.base = a.base + a.len := by
    simp only [meets, Bool.and_eq_true, beq_iff_eq] at h
    exact h.2.symm
  simp only [addresses, List.range_add, List.map_append, List.map_map, hbase]
  refine congrArg _ (List.map_congr_left fun i _ => ?_)
  exact (Address.add_add ..).symm

namespace ByteCursor

variable {p q : Pool Span n m} {s : Rows n m} {c c' : ByteCursor n m} {l tail : Fin m}
  {u v : Row n} {x y : Fin n}

/-! ### Where two chains meet -/

theorem appendAtSeam_eq (p : Pool Span n m) (l tail : Fin m) :
    appendAtSeam p l tail = (p.append l tail, arrive (p.append l tail) l (p.first tail)) := rfl

theorem seam_cut (s : Rows n m) (hlt : l ≠ tail) :
    ((s.set l (s l ++ s tail)).set tail []) l = s l ++ s tail := by
  rw [Rows.set_of_ne hlt, Rows.set_self]

theorem valid_seam (h : p.WellFormed) (hlt : l ≠ tail) :
    (appendAtSeam p l tail).2.Valid (p.append l tail) := by
  rw [appendAtSeam_eq, h.first_eq]
  exact valid_arrive (h.append hlt).represents (seam_cut _ hlt)

theorem ahead_seam (h : p.WellFormed) (hlt : l ≠ tail) :
    (appendAtSeam p l tail).2.ahead (p.append l tail) = p.addresses tail := by
  have hb := h.append hlt
  rw [appendAtSeam_eq, h.first_eq, ahead_arrive hb.represents (seam_cut _ hlt), h.addresses_eq]
  exact Pool.rowAddresses_congr fun x _ => hb.data x

/-! ### Joining two spans -/

theorem joint_eq_some_iff :
    c.joint p = some (y, x) ↔
      c.node = some x ∧ p.prev x = some y ∧ (p.data y).meets (p.data x) = true := by
  rw [joint]
  cases hx : c.node with
  | none => simp
  | some x' =>
      cases hy : p.prev x' with
      | none =>
          simp only [Option.bind_eq_bind, Option.bind_some, hy, Option.bind_none]
          constructor
          · intro h; contradiction
          · rintro ⟨h, h', -⟩
            rw [← Option.some.inj h, hy] at h'
            contradiction
      | some y' =>
          simp only [Option.bind_eq_bind, Option.bind_some, hy]
          constructor
          · intro h
            split at h
            · next hmeets =>
                obtain ⟨rfl, rfl⟩ := Prod.mk.inj (Option.some.inj h)
                exact ⟨rfl, hy, hmeets⟩
            · contradiction
          · rintro ⟨h, h', hmeets⟩
            obtain rfl := Option.some.inj h
            obtain rfl := Option.some.inj (hy.symm.trans h')
            rw [if_pos hmeets]

theorem joinBack_of_none (hj : c.joint p = none) : c.joinBack p = .ok (none, p, c) := by
  rw [joinBack, hj]

/-- Joining at a member takes it off its list and grows the node in front of it. -/
theorem joinBack_of_joint (h : p.Represents s) (hs : s c.list = u ++ y :: x :: v)
    (hj : c.joint p = some (y, x)) (hlt : (p.data y).len + p.len x < sizeLimit)
    (hoff : c.offset + (p.data y).len < sizeLimit) :
    ∃ q, c.joinBack p = .ok (some x, q, ⟨⟨c.list, some y⟩, c.offset + (p.data y).len⟩) ∧
      q.Represents (s.set c.list (u ++ y :: v)) ∧ (q.next x = none ∧ q.prev x = none) ∧
      (∀ z, q.data z = if z = y then ⟨(p.data y).base, (p.data y).len + p.len x, hlt⟩
        else p.data z) ∧
      ∀ z, z ∉ s c.list → p.SameLinks q z := by
  have hcut : s c.list = (u ++ [y]) ++ x :: v := by rw [hs, List.append_cons]
  have hgrown := h.setData y ⟨(p.data y).base, (p.data y).len + p.len x, hlt⟩
  obtain ⟨q, hq, hb, hlinks⟩ := hgrown.remove hcut
  refine ⟨q, ?_, by simpa using hb.represents, hlinks, fun z => ?_, fun z hz => ?_⟩
  · have hlist : c.place.list = c.list := rfl
    have hnode : c.place.node = some x := (joint_eq_some_iff.1 hj).1
    rw [joinBack, hj]
    simp only [dif_pos hlt, Cursor.remove, hnode, hlist, hq, bind, Except.bind, pure, Except.pure,
      addSize_of_lt hoff]
  · rw [hb.data, Pool.data_setData]
  · exact (Pool.sameLinks_setData p y _ z).trans (hgrown.sameLinks_remove hq hz)

/-- A node that has grown over the span of the next one describes what both did. -/
theorem addresses_grown (hmeets : (p.data y).meets (p.data x) = true)
    (hlt : (p.data y).len + p.len x < sizeLimit)
    (hdata : q.data y = ⟨(p.data y).base, (p.data y).len + p.len x, hlt⟩) :
    (q.data y).addresses = (p.data y).addresses ++ (p.data x).addresses := by
  rw [hdata]
  exact Span.addresses_join hmeets hlt

/-- A pool in which a node has been taken off a list, and the node in front of it has grown over its
span, describes the same on every list. -/
theorem addresses_of_joined (h : p.Represents s) (hs : s l = u ++ y :: x :: v)
    (hmeets : (p.data y).meets (p.data x) = true) (hlt : (p.data y).len + p.len x < sizeLimit)
    (hrep : q.Represents (s.set l (u ++ y :: v)))
    (hdata : ∀ z, q.data z = if z = y then ⟨(p.data y).base, (p.data y).len + p.len x, hlt⟩
      else p.data z) (j : Fin m) : q.addresses j = p.addresses j := by
  have hother : ∀ z, z ≠ y → q.data z = p.data z := fun z hz => by rw [hdata, if_neg hz]
  have hy : y ∉ u ∧ y ∉ x :: v :=
    ⟨h.apart.notMem_front hs, h.apart.notMem_back hs⟩
  rw [hrep.addresses_eq, h.addresses_eq]
  by_cases hjl : j = l
  · subst hjl
    have hgrown := addresses_grown hmeets hlt ((hdata y).trans (if_pos rfl))
    have hleft : q.rowAddresses u = p.rowAddresses u :=
      Pool.rowAddresses_congr fun z hz => hother z fun e => hy.1 (e ▸ hz)
    have hright : q.rowAddresses v = p.rowAddresses v :=
      Pool.rowAddresses_congr fun z hz => hother z fun e => hy.2 (by simp [← e, hz])
    rw [Rows.set_self, hs]
    simp only [Pool.rowAddresses_append, Pool.rowAddresses_cons, hleft, hright, hgrown,
      List.append_assoc]
  · rw [Rows.set_of_ne hjl]
    refine Pool.rowAddresses_congr fun z hz => hother z fun e => ?_
    exact hjl (h.apart.same_row (e ▸ hz) (by simp [hs]))

/-! ### Where spans are joined -/

/-- The cursor stands on the node `x`, the node `y` stands right in front of it on the cursor's list,
and the span of `y` ends where that of `x` starts. -/
structure Adjoins (p : Pool Span n m) (c : ByteCursor n m) (y x : Fin n) : Prop where
  node : c.node = some x
  neighbours : [y, x] <:+: p.members c.list
  /-- A span at the null address ends nowhere. -/
  base_ne : (p.data y).base ≠ .null
  /-- The sum wraps around like every address. -/
  base_add_len : (p.data y).base + (p.data y).len = (p.data x).base

/-- The two nodes that are joined are neighbours whose spans meet. -/
theorem joint_eq_some_iff_adjoins (h : p.WellFormed) (hc : c.Valid p) :
    c.joint p = some (y, x) ↔ c.Adjoins p y x := by
  have hmeets : (p.data y).meets (p.data x) = true ↔
      (p.data y).base ≠ .null ∧ (p.data y).base + (p.data y).len = (p.data x).base := by
    simp [Span.meets, Span.finish, Address.isNull]
  rw [joint_eq_some_iff, hmeets]
  constructor
  · rintro ⟨hx, hprev, hbase, hadd⟩
    obtain ⟨w, v, hs, -⟩ := hc.exists_cut h hx
    -- what a member names as preceding it is its left neighbour
    obtain ⟨u, rfl⟩ := List.getLast?_eq_some_iff.1 ((h.prev_eq hs).symm.trans hprev)
    exact ⟨hx, ⟨u, v, by rw [hs]; simp⟩, hbase, hadd⟩
  · rintro ⟨hx, ⟨u, v, huv⟩, hbase, hadd⟩
    have hs : p.members c.list = (u ++ [y]) ++ x :: v := by rw [← huv]; simp
    exact ⟨hx, by rw [h.prev_eq hs]; simp, hbase, hadd⟩

/-- What joining at the cursor `c` of the pool `p` leads to where the node `x` is taken off behind the
node `y`: the pool `q` and the cursor `c'`. -/
structure Joined (p : Pool Span n m) (c : ByteCursor n m) (y x : Fin n) (q : Pool Span n m)
    (c' : ByteCursor n m) : Prop where
  /-- The cursor's list has lost the node, and all others are as they were. -/
  represents : q.Represents (Rows.set p.members c.list ((p.members c.list).erase x))
  /-- The node has no links. -/
  unlinked : q.next x = none ∧ q.prev x = none
  /-- The node in front of it has grown by its length. -/
  grown : (q.data y).base = (p.data y).base ∧ (q.data y).len = (p.data y).len + (p.data x).len
  /-- All other nodes describe what they described, the one taken off included. -/
  data : ∀ z, z ≠ y → q.data z = p.data z
  /-- No link was written to but along the list. -/
  links : ∀ z, z ∉ p.members c.list → p.SameLinks q z
  /-- Every list describes what it described. -/
  addresses : ∀ j, q.addresses j = p.addresses j
  /-- The cursor stands on the node that has grown, as far behind its old end as it was in the other
  span. -/
  cursor : c' = ⟨⟨c.list, some y⟩, c.offset + (p.data y).len⟩
  /-- The cursor is valid. -/
  valid : c'.Valid q
  /-- The cursor has the same addresses ahead. -/
  ahead : c'.ahead q = c.ahead p

/-- **Spans that meet are joined**, if the two lengths add up to a size. -/
theorem joinBack_of_adjoins (h : p.WellFormed) (hc : c.Valid p) (ha : c.Adjoins p y x)
    (hlt : (p.data y).len + (p.data x).len < sizeLimit) :
    ∃ q c', c.joinBack p = .ok (some x, q, c') ∧ Joined p c y x q c' := by
  have hj := (joint_eq_some_iff_adjoins h hc).2 ha
  have hmeets := (joint_eq_some_iff.1 hj).2.2
  obtain ⟨u, v, huv⟩ := ha.neighbours
  have hs : p.members c.list = u ++ y :: x :: v := by rw [← huv]; simp
  have hs' : p.members c.list = (u ++ [y]) ++ x :: v := by rw [hs, List.append_cons]
  obtain ⟨-, -, -, hoff⟩ := hc.exists_cut h ha.node
  have hlen : p.len x = (p.data x).len := rfl
  obtain ⟨q, hq, hrep, hunlinked, hdata, hlinks⟩ := joinBack_of_joint h hs hj hlt (by omega)
  have hnew : (Rows.set p.members c.list (u ++ y :: v)) c.list = u ++ y :: v := Rows.set_self ..
  have herase : (p.members c.list).erase x = u ++ y :: v := by
    rw [hs', List.erase_append_right _ (h.apart.notMem_front hs'), List.erase_cons_head]
    simp
  have hy := h.apart.notMem_back hs
  have hgrown : q.data y = ⟨(p.data y).base, (p.data y).len + (p.data x).len, hlt⟩ :=
    (hdata y).trans (if_pos rfl)
  have hother : ∀ z, z ≠ y → q.data z = p.data z := fun z hz => by rw [hdata, if_neg hz]
  refine ⟨q, _, hq, herase ▸ hrep, hunlinked, ?_, hother, hlinks,
    addresses_of_joined h hs hmeets hlt hrep hdata, rfl, ?_, ?_⟩
  · rw [hgrown]
    exact ⟨rfl, rfl⟩
  · have hlen' : q.len y = (p.data y).len + (p.data x).len := by rw [Pool.len, hgrown]
    have hoff' : c.offset + (p.data y).len < q.len y := by omega
    exact valid_of_cut hrep hnew rfl hoff'
  · have hahead : ahead q ⟨⟨c.list, some y⟩, c.offset + (p.data y).len⟩ =
        (q.data y).addresses.drop (c.offset + (p.data y).len) ++ q.rowAddresses v :=
      ahead_eq hrep hnew rfl
    have hboth := addresses_grown hmeets hlt hgrown
    have hright : q.rowAddresses v = p.rowAddresses v :=
      Pool.rowAddresses_congr fun z hz => hother z fun e => hy (by simp [← e, hz])
    have hnil : (p.data y).addresses.drop (c.offset + (p.data y).len) = [] :=
      List.drop_eq_nil_of_le (by rw [Span.length_addresses]; omega)
    rw [hahead, ahead_eq h hs' ha.node, hboth, hright, List.drop_append, hnil,
      Span.length_addresses, Nat.add_sub_cancel, List.nil_append]

/-- What joining at the cursor `c` of the pool `p` leads to: the node that was taken off, if any,
another pool and another cursor. -/
structure Joins (p : Pool Span n m) (c : ByteCursor n m) (q : Pool Span n m)
    (c' : ByteCursor n m) : Prop where
  /-- All lists are linked along rows that have no node in common. -/
  wellFormed : q.WellFormed
  /-- The cursor is valid. -/
  valid : c'.Valid q
  /-- The cursor is bound to the same list. -/
  list : c'.list = c.list
  /-- Every list describes what it described. -/
  addresses : ∀ j, q.addresses j = p.addresses j
  /-- The cursor has the same addresses ahead. -/
  ahead : c'.ahead q = c.ahead p

theorem Joined.joins (h : Joined p c y x q c') : Joins p c q c' :=
  ⟨h.represents.wellFormed, h.valid, by rw [h.cursor]; rfl, h.addresses, h.ahead⟩

/-- The lengths of two neighbours are part of those of their list. -/
theorem len_add_len_le (h : [y, x] <:+: p.members l) :
    (p.data y).len + (p.data x).len ≤ (p.addresses l).length := by
  obtain ⟨u, v, huv⟩ := h
  rw [p.addresses_eq_rowAddresses, ← huv]
  simp only [Pool.rowAddresses_append, Pool.rowAddresses_cons, List.length_append,
    Span.length_addresses]
  omega

/-- **Joining keeps what is described and where the cursor stands in it**, on a list whose bytes are as
many as a size can tell. -/
theorem joinBack_eq (h : p.WellFormed) (hc : c.Valid p)
    (hfit : (p.addresses c.list).length < sizeLimit) :
    ∃ removed q c', c.joinBack p = .ok (removed, q, c') ∧ Joins p c q c' := by
  cases hj : c.joint p with
  | none => exact ⟨none, p, c, joinBack_of_none hj, h, hc, rfl, fun _ => rfl, rfl⟩
  | some yx =>
      obtain ⟨y, x⟩ := yx
      have ha := (joint_eq_some_iff_adjoins h hc).1 hj
      have hlt := Nat.lt_of_le_of_lt (len_add_len_le ha.neighbours) hfit
      obtain ⟨q, c', hq, hjoined⟩ := joinBack_of_adjoins h hc ha hlt
      exact ⟨some x, q, c', hq, hjoined.joins⟩

end ByteCursor

/-- **A span is joined to the one in front of it exactly where the two meet**, and the cursor stays at
its byte.  The lengths of the two neighbours at the cursor, if there are two, add up to a size; all
others may be of any length.  Where nothing is joined, nothing changes. -/
theorem joins_exactly_where_spans_meet {p : Pool Span n m} {c : ByteCursor n m} (h : p.WellFormed)
    (hc : c.Valid p)
    (hfit : ∀ y x, c.node = some x → [y, x] <:+: p.members c.list →
      (p.data y).len + (p.data x).len < sizeLimit) :
    ∃ removed q c', c.joinBack p = .ok (removed, q, c') ∧
      (∀ x, removed = some x ↔ ∃ y, c.Adjoins p y x) ∧
      (∀ y x, c.Adjoins p y x → c.Joined p y x q c') ∧
      (removed = none → q = p ∧ c' = c) ∧
      ((p.addresses c.list).length < sizeLimit → c'.remaining q = c.remaining p) := by
  have hiff : ∀ y x, c.Adjoins p y x ↔ c.joint p = some (y, x) := fun y x =>
    (ByteCursor.joint_eq_some_iff_adjoins h hc).symm
  cases hj : c.joint p with
  | none =>
      refine ⟨none, p, c, ByteCursor.joinBack_of_none hj, ?_, ?_, fun _ => ⟨rfl, rfl⟩, fun _ => rfl⟩
      · simp [hiff, hj]
      · simp [hiff, hj]
  | some yx =>
      obtain ⟨y, x⟩ := yx
      have ha := (hiff y x).2 hj
      obtain ⟨q, c', hq, hjoined⟩ :=
        ByteCursor.joinBack_of_adjoins h hc ha (hfit y x ha.node ha.neighbours)
      refine ⟨some x, q, c', hq, fun z => ?_, fun y' x' ha' => ?_, by simp, fun htotal => ?_⟩
      · simp [hiff, hj]
      · have hpair := (hiff y' x').1 ha'
        rw [hj] at hpair
        obtain ⟨rfl, rfl⟩ := Prod.mk.inj (Option.some.inj hpair)
        exact hjoined
      · have htotal' : (q.addresses c'.list).length < sizeLimit := by
          rw [hjoined.addresses, hjoined.joins.list]
          exact htotal
        rw [ByteCursor.remaining_eq hjoined.represents.wellFormed hjoined.valid htotal',
          hjoined.ahead, ByteCursor.remaining_eq h hc htotal]

/-- The span in front ends behind the last address and so at the first one, the null address, where
the cursor's span starts.  An empty span and one of another kind stand around the two. -/
theorem joins_exactly_where_spans_meet_wrapping :
    let pool : Pool Span 4 1 :=
      ⟨#v[⟨⟨some 2, none⟩, .empty⟩,
          ⟨⟨some 3, some 2⟩, ⟨.null, 4, by decide⟩⟩,
          ⟨⟨some 1, some 0⟩, ⟨.absolute (-5), 5, by decide⟩⟩,
          ⟨⟨none, some 1⟩, ⟨.inMemory 4, 2, by decide⟩⟩],
        #v[⟨some 0, some 3⟩]⟩
    let c : ByteCursor 4 1 := ⟨⟨0, some 1⟩, 3⟩
    pool.WellFormed ∧ c.Valid pool ∧ c.Adjoins pool 2 1 ∧
      ∃ q, c.joinBack pool = .ok (some 1, q, ⟨⟨0, some 2⟩, 8⟩) ∧ q.members 0 = [0, 2, 3] ∧
        (q.data 2).base = .absolute (-5) ∧ (q.data 2).len = 9 := by
  intro pool c
  have h : pool.WellFormed := by decide
  have hc : c.Valid pool := by decide
  have ha : c.Adjoins pool 2 1 := ⟨rfl, by decide, by decide, by decide⟩
  obtain ⟨removed, q, c', hq, hremoved, hjoined, -, -⟩ :=
    joins_exactly_where_spans_meet h hc (by decide)
  obtain rfl := (hremoved 1).2 ⟨2, ha⟩
  have hj := hjoined 2 1 ha
  have hmembers : q.members 0 = [0, 2, 3] := by
    rw [hj.represents.members_eq]
    decide
  exact ⟨h, hc, ha, q, hj.cursor ▸ hq, hmembers, hj.grown⟩

end SpanChain
