/-
**Reshaping loses no byte.**

Splitting into an empty list, appending and joining move bytes between lists and nodes, through
cursors that may be stale.  All lists together describe the same addresses after each such operation,
and nodes come and go only as the spare ones: a split inside a span brings one, and joining hands one
back.

Main definitions:

* `SpanChain.Pool.listed` — the nodes of all lists;
* `SpanChain.Pool.Conserves` — what is described is the same, and nodes are accounted for.

Main results:

* `SpanChain.Pool.sum_capacities` — the capacities of all lists are the number of all bytes;
* `SpanChain.Pool.conserves_append` — appending;
* `SpanChain.ByteCursor.checked_of_splitInside` — what a cut inside a span has come through;
* `SpanChain.ByteCursor.conserves_splitAt`, `SpanChain.ByteCursor.conserves_joinBack` — **splitting
  and joining through any cursor**.
-/

import SpanChain.Proofs.Bytes.Described
import SpanChain.Proofs.Bytes.Join
import SpanChain.Proofs.Rows.Guard

set_option relaxedAutoImplicit false
set_option autoImplicit false

namespace SpanChain

open scoped BigOperators

variable {α : Type} {n m : Nat}

/-! ### Nodes and bytes of all lists -/

namespace Pool

section Listed

variable {p : Pool α n m} {s : Rows n m} {x : Fin n}

/-- The nodes of all lists. -/
def listed (p : Pool α n m) : Multiset (Fin n) := ∑ l, (p.members l : Multiset (Fin n))

theorem card_listed (p : Pool α n m) : p.listed.card = ∑ l, p.count l := by
  rw [listed, Multiset.card_sum]
  rfl

theorem additive_nodes : Rows.Additive fun u : Row n => (u : Multiset (Fin n)) :=
  ⟨rfl, fun u v => (Multiset.coe_add u v).symm⟩

theorem Represents.listed_eq (h : p.Represents s) :
    p.listed = ∑ l, (s l : Multiset (Fin n)) := by
  rw [listed, h.members_eq]

end Listed

variable {p q : Pool Span n m} {l k : Fin m} {x : Fin n} {used freed : Multiset (Fin n)}

/-- The pool `q` describes what the pool `p` does; the nodes `used` have come to its lists, and the
nodes `freed` have left them. -/
structure Conserves (p q : Pool Span n m) (used freed : Multiset (Fin n)) : Prop where
  /-- All lists are linked along rows that have no node in common. -/
  wellFormed : q.WellFormed
  /-- The lists together describe the same addresses. -/
  described : q.described = p.described
  /-- All nodes are accounted for. -/
  listed : q.listed + freed = p.listed + used

theorem Conserves.refl (h : p.WellFormed) : p.Conserves p 0 0 := ⟨h, rfl, rfl⟩

/-- Nothing is lost if the rows share the same nodes, and these carry what they carried. -/
theorem Conserves.of_becomes {t : Rows n m} (h : p.WellFormed) (hb : p.Becomes p.members q t)
    (hsum : ∀ {M : Type} [AddCancelCommMonoid M] {g : Row n → M}, Rows.Additive g →
      ∑ j, g (t j) = ∑ j, g (p.members j)) : p.Conserves q 0 0 := by
  refine ⟨hb.represents.wellFormed, ?_, ?_⟩
  · rw [hb.described_eq, hsum p.additive_rowAddresses, h.described_eq]
  · rw [hb.represents.listed_eq, hsum additive_nodes]
    rfl

theorem conserves_append (h : p.WellFormed) (hlk : l ≠ k) : p.Conserves (p.append l k) 0 0 :=
  .of_becomes h (h.append hlk) fun hg => hg.sum_append hlk

/-- To empty an empty list changes nothing of it. -/
theorem conserves_clear (h : p.WellFormed) (hl : p.members l = []) :
    p.Conserves (p.clear l) 0 0 := by
  have hb := h.clear l
  rw [← hl, Rows.set_eq_self] at hb
  exact .of_becomes h hb fun _ => rfl

/-- A cut into an empty list. -/
theorem conserves_cutBefore (h : p.WellFormed) (hlk : l ≠ k) (hk : p.members k = [])
    (hq : p.cutBefore l x k = .ok q) : p.Conserves q 0 0 := by
  obtain ⟨_, hcheck, -⟩ := bind_eq_ok.1 hq
  obtain ⟨u, v, hs, -⟩ := Row.exists_eq_append_cons (mem_of_checkMember hcheck)
  obtain ⟨q', hq', hb⟩ := Represents.cutBefore h hs hlk
  obtain rfl := Except.ok.inj (hq.symm.trans hq')
  refine .of_becomes h hb fun {M} _ {g} hg => ?_
  have hsum := hg.sum_cut (s := p.members) hlk (congrArg g hs).symm
  rwa [hk, hg.nil, add_zero] at hsum

end Pool

/-! ### Capacities -/

namespace Pool

variable {p : Pool Span n m} {l : Fin m}

theorem sum_of_foldlM_addSize {sizes : List Nat} {total result : Nat}
    (h : sizes.foldlM addSize total = .ok result) : result = total + sizes.sum := by
  induction sizes generalizing total with
  | nil => exact (Except.ok.inj h).symm
  | cons size sizes ih =>
      rw [List.foldlM_cons] at h
      obtain ⟨total', htotal, hrest⟩ := bind_eq_ok.1 h
      obtain ⟨-, rfl⟩ := addSize_eq_ok_iff.1 htotal
      rw [ih hrest, List.sum_cons, Nat.add_assoc]

/-- A capacity that can be told is the sum of the lengths. -/
theorem sum_of_capacity {size : Nat} (h : p.capacity l = .ok size) :
    size = ((p.spans l).map Span.len).sum := by
  rw [capacity] at h
  split at h
  · contradiction
  · rw [sum_of_foldlM_addSize h, Nat.zero_add]

/-- The capacities of all lists, where they can be told, are the number of all bytes. -/
theorem sum_capacities {sizes : Fin m → Nat} (h : ∀ l, p.capacity l = .ok (sizes l)) :
    ∑ l, sizes l = p.total :=
  Finset.sum_congr rfl fun l _ => sum_of_capacity (h l)

end Pool

/-! ### One operation through a cursor -/

namespace ByteCursor

variable {p q : Pool Span n m} {c c' : ByteCursor n m} {x e : Fin n} {tail : Fin m}
  {extra : Option (Fin n)}

/-- A cut inside a span that returns was made at a member of the cursor's list, within its span and
into another list, wherever the cursor stood. -/
theorem checked_of_splitInside (h : p.WellFormed) (he : Rows.Unlisted p.members e)
    (hx : c.node = some x) (hq : c.splitInside p tail x e = .ok (q, c')) :
    x ∈ p.members c.list ∧ c.offset ≤ p.len x ∧ tail ≠ c.list := by
  obtain ⟨head, hhead, hq⟩ := bind_eq_ok.1 hq
  obtain ⟨back, -, hq⟩ := bind_eq_ok.1 hq
  obtain ⟨⟨q₁, place⟩, hq₁, hq⟩ := bind_eq_ok.1 hq
  obtain ⟨⟨q₂, place₂⟩, hq₂, -⟩ := bind_eq_ok.1 hq
  obtain ⟨q', hinsert, heq⟩ := bind_eq_ok.1 hq₁
  obtain ⟨-, rfl⟩ := Prod.mk.inj (Except.ok.inj heq)
  refine ⟨?_, ?_, (Cursor.of_cutInto hq₂).1.symm⟩
  · -- the anchor was looked for after the spans were written, which moves no node
    have hrenew : ((p.setData x head).renew e back).Represents p.members :=
      ((h.setData x head).unlink he).setData e back
    have hnode : c.place.node = some x := hx
    rw [hnode, Pool.insertBeyond_forward] at hinsert
    obtain ⟨_, hcheck, -⟩ := bind_eq_ok.1 hinsert
    have hmem := Pool.mem_of_checkMember hcheck
    rwa [hrenew.members_eq] at hmem
  · by_contra hlt
    rw [Span.takeFirst_eq_error_iff.2 ⟨Nat.lt_of_not_le hlt, rfl⟩] at hhead
    contradiction

/-- A cut inside a span brings the spare node to the lists, and no byte is lost. -/
theorem conserves_splitInside (h : p.WellFormed) (htail : p.members tail = [])
    (he : Rows.Unlisted p.members e) (hx : c.node = some x)
    (hq : c.splitInside p tail x e = .ok (q, c')) : p.Conserves q {e} 0 := by
  obtain ⟨hmem, hle, hne⟩ := checked_of_splitInside h he hx hq
  obtain ⟨u, v, hs, -⟩ := Row.exists_eq_append_cons hmem
  obtain ⟨q', head, back, hq', hhead, hback, hrep, hdata, -⟩ :=
    splitInside_eq h hx hs hle he hne
  obtain ⟨rfl, -⟩ := Prod.mk.inj (Except.ok.inj (hq.symm.trans hq'))
  obtain ⟨hkept, hmoved⟩ := rowAddresses_splitInside h hx hs he hhead hback hdata
  have hlist : q.addresses c.list = c.passed p := by
    rw [hrep.addresses_eq, Rows.set_of_ne hne.symm, Rows.set_self, hkept]
  have htails : q.addresses tail = c.ahead p := by rw [hrep.addresses_eq, Rows.set_self, hmoved]
  refine ⟨hrep.wellFormed, ?_, ?_⟩
  · have hoff := Pool.described_of_eq_off (p := p) (q := q) hne.symm fun j hj hjt => by
      rw [hrep.addresses_eq, Rows.set_of_ne hjt, Rows.set_of_ne hj, h.addresses_eq]
      refine Pool.rowAddresses_congr fun y hy => ?_
      have hye : y ≠ e := fun hye => he j (hye ▸ hy)
      have hyx : y ≠ x := fun hyx => hj (h.apart.same_row (hyx ▸ hy) hmem)
      rw [hdata, if_neg hye, if_neg hyx]
    have htail' : p.addresses tail = [] := by rw [h.addresses_eq, htail]; rfl
    rw [Multiset.coe_add (q.addresses c.list), hlist, htails, passed_append_ahead_of_cut h hs hx,
      htail', Multiset.coe_nil, add_zero] at hoff
    exact add_right_cancel hoff
  · -- the spare node comes behind the member first, and the row is cut in front of it then
    have hcut : p.members c.list = (u ++ [x]) ++ v := hs.trans (List.append_cons u x v)
    have hrow : (Rows.set p.members c.list ((u ++ [x]) ++ e :: v)) c.list =
        (u ++ [x]) ++ e :: v := Rows.set_self ..
    have hinsert := Pool.additive_nodes.sum_insert hcut e
    have hsum := Pool.additive_nodes.sum_cut hne.symm (congrArg _ hrow).symm
    rw [Rows.set_of_ne hne, htail, Rows.set_set, hinsert] at hsum
    rw [hrep.listed_eq]
    exact hsum

/-- **A split loses no byte**, and brings the spare node to the lists if it is inside a span. -/
theorem conserves_splitAt {split : Split n} (h : p.WellFormed) (htail : p.members tail = [])
    (hextra : ∀ e ∈ extra, Rows.Unlisted p.members e)
    (hq : c.splitAt p tail extra = .ok (.ok (split, q, c'))) :
    (split = .aligned extra ∧ p.Conserves q 0 0) ∨
      ∃ e, extra = some e ∧ split = .unaligned ∧ p.Conserves q {e} 0 := by
  unfold splitAt at hq
  split at hq
  · next x e hinside =>
      obtain ⟨⟨q', c''⟩, hq', heq⟩ := bind_eq_ok.1 hq
      obtain ⟨rfl, hpair⟩ := Prod.mk.inj (Except.ok.inj (Except.ok.inj heq))
      obtain ⟨rfl, -⟩ := Prod.mk.inj hpair
      have hx : c.node = some x := by
        rw [inside] at hinside
        split at hinside
        · exact hinside
        · contradiction
      exact .inr ⟨e, rfl, rfl, conserves_splitInside h htail (hextra e rfl) hx hq'⟩
  · obtain hq := Except.ok.inj hq
    contradiction
  · obtain ⟨⟨q', place⟩, hq', heq⟩ := bind_eq_ok.1 hq
    obtain ⟨rfl, hpair⟩ := Prod.mk.inj (Except.ok.inj (Except.ok.inj heq))
    obtain ⟨rfl, -⟩ := Prod.mk.inj hpair
    refine .inl ⟨rfl, ?_⟩
    obtain ⟨hne, -, ⟨-, rfl⟩ | ⟨x, -, hcut⟩⟩ := Cursor.of_cutInto hq'
    · exact Pool.conserves_clear h htail
    · exact Pool.conserves_cutBefore h hne htail hcut

/-- **Joining loses no byte**, and takes the node that it hands back off the lists. -/
theorem conserves_joinBack {y : Option (Fin n)} (h : p.WellFormed)
    (hq : c.joinBack p = .ok (y, q, c')) : p.Conserves q 0 (y.elim 0 fun x => {x}) := by
  cases hj : c.joint p with
  | none =>
      rw [joinBack_of_none hj] at hq
      obtain ⟨rfl, hpair⟩ := Prod.mk.inj (Except.ok.inj hq)
      obtain ⟨rfl, -⟩ := Prod.mk.inj hpair
      exact .refl h
  | some yx =>
      obtain ⟨z, x⟩ := yx
      obtain ⟨hx, hprev, hmeets⟩ := joint_eq_some_iff.1 hj
      have hq₀ := hq
      rw [joinBack, hj] at hq
      dsimp only at hq
      split at hq
      · next hlt =>
          obtain ⟨⟨removed, q', place⟩, hremove, hq⟩ := bind_eq_ok.1 hq
          obtain ⟨offset, hoffset, -⟩ := bind_eq_ok.1 hq
          obtain ⟨hoff, -⟩ := addSize_eq_ok_iff.1 hoffset
          -- the cursor's node was found on its list, so the node in front of it is on it too
          have hnode : c.place.node = some x := hx
          simp only [Cursor.remove, hnode] at hremove
          obtain ⟨q'', hq'', -⟩ := bind_eq_ok.1 hremove
          obtain ⟨_, hcheck, -⟩ := bind_eq_ok.1 hq''
          have hmem := Pool.mem_of_checkMember hcheck
          rw [(h.setData z _).members_eq] at hmem
          obtain ⟨w, v, hs, -⟩ := Row.exists_eq_append_cons hmem
          obtain ⟨u, rfl⟩ := List.getLast?_eq_some_iff.1 ((h.prev_eq hs).symm.trans hprev)
          have hs' : p.members c.list = u ++ z :: x :: v :=
            hs.trans (List.append_cons u z (x :: v)).symm
          obtain ⟨q₁, hq₁, hrep, -, hdata, -⟩ := joinBack_of_joint h hs' hj hlt hoff
          obtain ⟨rfl, hpair⟩ := Prod.mk.inj (Except.ok.inj (hq₀.symm.trans hq₁))
          obtain ⟨rfl, -⟩ := Prod.mk.inj hpair
          refine ⟨hrep.wellFormed, ?_, ?_⟩
          · have haddr := addresses_of_joined h hs' hmeets hlt hrep hdata
            rw [Pool.described, Pool.described]
            simp only [haddr]
          · have hs'' : p.members c.list = (u ++ [z]) ++ x :: v := hs
            have hsum := Pool.additive_nodes.sum_remove hs''
            rw [← List.append_cons] at hsum
            rw [hrep.listed_eq, add_zero]
            exact hsum
      · contradiction

end ByteCursor

end SpanChain
