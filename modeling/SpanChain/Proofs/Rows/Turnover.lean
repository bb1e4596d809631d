/-
**Which nodes come to the lists and go from them.**

An edit that returns has put at most one node on a list, or taken one off, or has dropped what a list
held that it emptied or overwrote; all other nodes only move from list to list.  A node that was taken
off has no links, and it has none as long as it is not put in again, whatever happens to the lists: no
edit gives links to a node that is on no list afterwards.

Main definitions:

* `SpanChain.Turnover` — a node put in, a node taken off, or nodes dropped;
* `SpanChain.ListEdit.turnover` — the turnover of an edit;
* `SpanChain.Pool.Turns` — two pools between which there is a turnover;
* `SpanChain.Pool.Reaches` — so it is, and harmless changes lead from one pool to the other;
* `SpanChain.Pool.Loose` — a node is on no list and has no links.

Main results:

* `SpanChain.Pool.Turns.listed` — a node that is not among those that go stays on a list;
* `SpanChain.Pool.Turns.loose_of_remove`, `SpanChain.Pool.Turns.loose` — a node that is taken off is
  loose, and it is so until it is put in;
* `SpanChain.Pool.Reaches.insertAfter` and its like — what each operation comes down to;
* `SpanChain.Pool.Reaches.of_apply` — **so for a harmless edit**.
-/

import SpanChain.Proofs.Rows.Frame

set_option relaxedAutoImplicit false
set_option autoImplicit false

namespace SpanChain

variable {α : Type} {n m : Nat}

/-! ### Turnovers -/

/-- What a change does to the nodes that are on lists. -/
inductive Turnover (n : Nat) where
  /-- The same nodes are on lists. -/
  | keep
  | insert (x : Fin n)
  | remove (x : Fin n)
  /-- Nodes are dropped with the list that they are on. -/
  | drop (nodes : Row n)
  deriving DecidableEq

namespace Turnover

/-- The nodes that go. -/
def gone : Turnover n → Row n
  | .keep | .insert _ => []
  | .remove x => [x]
  | .drop nodes => nodes

/-- The nodes that come. -/
def come : Turnover n → Row n
  | .insert x => [x]
  | .keep | .remove _ | .drop _ => []

end Turnover

/-- The turnover of an edit. -/
def ListEdit.turnover (p : Pool α n m) : ListEdit n m → Turnover n
  | .clear l => .drop (p.members l)
  | .pushFront _ x | .pushBack _ x | .insertAfter _ _ x | .insertBefore _ _ x => .insert x
  | .popFront l => (p.first l).elim .keep .remove
  | .popBack l => (p.last l).elim .keep .remove
  | .remove _ x => .remove x
  | .tryRemove l x => if p.contains l x then .remove x else .keep
  | .cutBefore l _ k | .cutThrough l _ k => if l = k then .keep else .drop (p.members k)
  | .swap _ _ | .shareEnds _ _ | .append _ _ | .unlink _ => .keep

theorem Turnover.count_come_insert (x y : Fin n) :
    (Turnover.insert x).come.count y = if x = y then 1 else 0 := by
  rw [come, List.count_singleton]
  simp only [beq_iff_eq]

/-- An edit that needs two lists and is given one turns nothing over. -/
theorem ListEdit.turnover_of_not_isSound {p : Pool α n m} {e : ListEdit n m}
    (h : ¬ e.isSound = true) : e.turnover p = .keep := by
  cases e with
  | cutBefore l x k => exact if_pos (not_not.1 fun hlk => h (decide_eq_true hlk))
  | cutThrough l x k => exact if_pos (not_not.1 fun hlk => h (decide_eq_true hlk))
  | swap l k => rfl
  | shareEnds l k => rfl
  | append l k => rfl
  | unlink x => rfl
  | _ => exact absurd rfl h

namespace Pool

variable {p q : Pool α n m} {t : Rows n m} {l k : Fin m} {x : Fin n} {a : Option (Fin n)}
  {τ : Turnover n}

/-- Between two pools there is the given turnover. -/
structure Turns (p q : Pool α n m) (τ : Turnover n) : Prop where
  /-- What is on lists afterwards, and what has gone, is what was on lists and what has come. -/
  tally : ∀ x, Rows.tally q.members x + τ.gone.count x = Rows.tally p.members x + τ.come.count x
  /-- A node that was taken off has no links. -/
  unlinked : ∀ x, τ = .remove x → q.next x = none ∧ q.prev x = none
  /-- A node that is on no list afterwards has its links from before, or none. -/
  links : ∀ x, Rows.Unlisted q.members x → p.SameLinks q x ∨ q.next x = none ∧ q.prev x = none

/-- A node is on no list and has no links. -/
structure Loose (p : Pool α n m) (x : Fin n) : Prop where
  unlisted : Rows.Unlisted p.members x
  next : p.next x = none
  prev : p.prev x = none

namespace Turns

/-- A node on a list that is not among those that go is on a list. -/
theorem listed (h : p.Turns q τ) (hx : ¬ Rows.Unlisted p.members x) (hstay : x ∉ τ.gone) :
    ¬ Rows.Unlisted q.members x := by
  rw [← Rows.tally_eq_zero_iff] at hx ⊢
  have htally := h.tally x
  have := List.count_eq_zero.2 hstay
  omega

/-- A node that is taken off is loose. -/
theorem loose_of_remove (h : p.Turns q (.remove x)) (hp : p.WellFormed) : q.Loose x := by
  obtain ⟨hnext, hprev⟩ := h.unlinked x rfl
  refine ⟨Rows.tally_eq_zero_iff.1 ?_, hnext, hprev⟩
  -- it was on one list only
  have htally := h.tally x
  have hone := Rows.apart_iff.1 hp.apart x
  simp only [Turnover.gone, Turnover.come, List.count_singleton_self, List.count_nil] at htally
  omega

/-- A loose node that is not put in stays loose. -/
theorem loose (h : p.Turns q τ) (hx : p.Loose x) (hcome : x ∉ τ.come) : q.Loose x := by
  have hout : Rows.Unlisted q.members x := by
    have htally := h.tally x
    have hbefore := Rows.tally_eq_zero_iff.2 hx.unlisted
    have := List.count_eq_zero.2 hcome
    exact Rows.tally_eq_zero_iff.1 (by omega)
  rcases h.links x hout with hsame | ⟨hnext, hprev⟩
  · exact ⟨hout, hsame.next.trans hx.next, hsame.prev.trans hx.prev⟩
  · exact ⟨hout, hnext, hprev⟩

end Turns

/-- Harmless changes lead from one pool to the other, and if the first is well-formed, there is the
given turnover between them. -/
structure Reaches (p q : Pool α n m) (τ : Turnover n) : Prop where
  changes : p.Changes q
  turns : p.WellFormed → p.Turns q τ

namespace Reaches

/-! ### One operation -/

theorem refl (p : Pool α n m) : p.Reaches p .keep :=
  ⟨.refl p, fun _ => ⟨fun _ => rfl, by simp, fun x _ => .inl (.refl p x)⟩⟩

/-- Of one change only the rows need an account, and the links of a node that is taken off. -/
theorem of_change (hc : Change p q)
    (h : p.WellFormed → ∃ t : Rows n m, q.Represents t ∧
      (∀ x, t.tally x + τ.gone.count x = Rows.tally p.members x + τ.come.count x) ∧
      ∀ x, τ = .remove x → q.next x = none ∧ q.prev x = none) : p.Reaches q τ := by
  refine ⟨.of_change hc, fun hwf => ?_⟩
  obtain ⟨t, hrep, htally, hlinks⟩ := h hwf
  exact ⟨fun x => by rw [hrep.members_eq]; exact htally x, hlinks,
    fun _ hx => hc.links_of_unlisted hwf hx⟩

theorem setData (p : Pool α n m) (x : Fin n) (d : α) : p.Reaches (p.setData x d) .keep :=
  .of_change (.data x d) fun h => ⟨_, Represents.setData h x d, fun _ => rfl, by simp⟩

theorem unlink (hx : Rows.Unlisted p.members x) : p.Reaches (p.unlink x) .keep :=
  .of_change (.unlink hx) fun h => ⟨_, Represents.unlink h hx, fun _ => rfl, by simp⟩

theorem clear (p : Pool α n m) (l : Fin m) : p.Reaches (p.clear l) (.drop (p.members l)) :=
  .of_change (.clear l) fun h =>
    ⟨_, (Represents.clear h l).represents, Rows.tally_update p.members l [], by simp⟩

theorem swap (p : Pool α n m) (l k : Fin m) : p.Reaches (p.swap l k) .keep :=
  .of_change (.swap l k) fun h =>
    ⟨_, (Represents.swap h l k).represents, Rows.tally_swap p.members l k, by simp⟩

theorem append (hlk : l ≠ k) : p.Reaches (p.append l k) .keep :=
  .of_change (.append hlk) fun h =>
    ⟨_, (Represents.append h hlk).represents, Rows.tally_append hlk, by simp⟩

theorem insertAfter (hx : Rows.Unlisted p.members x) (hq : p.insertAfter l a x = .ok q) :
    p.Reaches q (.insert x) := by
  refine .of_change (.insertAfter hx hq) fun h => ?_
  obtain ⟨_, hcheck, -⟩ := bind_eq_ok.1 hq
  obtain ⟨u, v, hs, rfl, -⟩ := Row.exists_cut_behind (mem_of_checkAnchor hcheck)
  obtain ⟨q', hq', hb⟩ := Represents.insertAfter h hs hx
  obtain rfl := Except.ok.inj (hq.symm.trans hq')
  refine ⟨_, hb.represents, fun y => ?_, by simp⟩
  rw [Rows.tally_insert hs, Turnover.count_come_insert]
  rfl

theorem insertBefore (hx : Rows.Unlisted p.members x) (hq : p.insertBefore l a x = .ok q) :
    p.Reaches q (.insert x) := by
  refine .of_change (.insertBefore hx hq) fun h => ?_
  obtain ⟨_, hcheck, -⟩ := bind_eq_ok.1 hq
  obtain ⟨u, v, hs, rfl, -⟩ := Row.exists_cut_ahead (mem_of_checkAnchor hcheck)
  obtain ⟨q', hq', hb⟩ := Represents.insertBefore h hs hx
  obtain rfl := Except.ok.inj (hq.symm.trans hq')
  refine ⟨_, hb.represents, fun y => ?_, by simp⟩
  rw [Rows.tally_insert hs, Turnover.count_come_insert]
  rfl

theorem remove (hq : p.remove l x = .ok q) : p.Reaches q (.remove x) := by
  refine .of_change (.remove hq) fun h => ?_
  obtain ⟨_, hcheck, -⟩ := bind_eq_ok.1 hq
  obtain ⟨u, v, hs, -⟩ := Row.exists_eq_append_cons (mem_of_checkMember hcheck)
  obtain ⟨q', hq', hb, hlinks⟩ := Represents.remove h hs
  obtain rfl := Except.ok.inj (hq.symm.trans hq')
  refine ⟨_, hb.represents, fun y => (Rows.additive_count y).sum_remove hs, ?_⟩
  rintro y ⟨⟩
  exact hlinks

theorem cutBefore (hlk : l ≠ k) (hq : p.cutBefore l x k = .ok q) :
    p.Reaches q (.drop (p.members k)) := by
  refine .of_change (.cutBefore hlk hq) fun h => ?_
  obtain ⟨_, hcheck, -⟩ := bind_eq_ok.1 hq
  obtain ⟨u, v, hs, -⟩ := Row.exists_eq_append_cons (mem_of_checkMember hcheck)
  obtain ⟨q', hq', hb⟩ := Represents.cutBefore h hs hlk
  obtain rfl := Except.ok.inj (hq.symm.trans hq')
  exact ⟨_, hb.represents, fun y => (Rows.additive_count y).sum_cut hlk (by rw [hs]), by simp⟩

theorem cutThrough (hlk : l ≠ k) (hq : p.cutThrough l x k = .ok q) :
    p.Reaches q (.drop (p.members k)) := by
  refine .of_change (.cutThrough hlk hq) fun h => ?_
  obtain ⟨_, hcheck, -⟩ := bind_eq_ok.1 hq
  obtain ⟨u, v, hs, -⟩ := Row.exists_eq_append_cons (mem_of_checkMember hcheck)
  obtain ⟨q', hq', hb⟩ := Represents.cutThrough h hs hlk
  obtain rfl := Except.ok.inj (hq.symm.trans hq')
  have hperm : (v ++ (u ++ [x])).Perm (p.members l) := by
    rw [hs, List.append_cons u x v]
    exact List.perm_append_comm
  exact ⟨_, hb.represents, fun y => (Rows.additive_count y).sum_cut hlk (hperm.count_eq y),
    by simp⟩

variable {r : Option (Fin n)}

/-- Taking a node off an end is a removal, or nothing where there is none. -/
theorem popFront (hq : p.popFront l = .ok (r, q)) :
    p.Reaches q ((p.first l).elim .keep .remove) := by
  rw [Pool.popFront] at hq
  cases hx : p.first l with
  | some x =>
      rw [hx] at hq
      obtain ⟨-, hq'⟩ := map_mk_eq_ok.1 hq
      exact remove hq'
  | none =>
      rw [hx] at hq
      obtain ⟨-, rfl⟩ := Prod.mk.inj (Except.ok.inj hq)
      exact .refl p

theorem popBack (hq : p.popBack l = .ok (r, q)) :
    p.Reaches q ((p.last l).elim .keep .remove) := by
  rw [Pool.popBack] at hq
  cases hx : p.last l with
  | some x =>
      rw [hx] at hq
      obtain ⟨-, hq'⟩ := map_mk_eq_ok.1 hq
      exact remove hq'
  | none =>
      rw [hx] at hq
      obtain ⟨-, rfl⟩ := Prod.mk.inj (Except.ok.inj hq)
      exact .refl p

/-! ### Every edit -/

/-- **A harmless edit that returns has made one change at most, with its turnover**, whatever nodes
and lists it was given. -/
theorem of_apply {e : ListEdit n m} {r : Reply α n} (he : e.Harmless p.members)
    (hq : e.apply p = .ok (r, q)) : p.Reaches q (e.turnover p) := by
  rw [ListEdit.apply] at hq
  split at hq
  · next hsound =>
      cases e with
      | clear l =>
          obtain ⟨-, rfl⟩ := Prod.mk.inj (Except.ok.inj hq)
          exact clear p l
      | pushFront l x =>
          obtain ⟨-, hq'⟩ := map_mk_eq_ok.1 hq
          exact insertAfter he hq'
      | pushBack l x =>
          obtain ⟨-, hq'⟩ := map_mk_eq_ok.1 hq
          exact insertBefore he hq'
      | insertAfter l anchor x =>
          obtain ⟨-, hq'⟩ := map_mk_eq_ok.1 hq
          exact insertAfter he hq'
      | insertBefore l anchor x =>
          obtain ⟨-, hq'⟩ := map_mk_eq_ok.1 hq
          exact insertBefore he hq'
      | popFront l =>
          obtain ⟨⟨y, q'⟩, hq', heq⟩ := map_eq_ok.1 hq
          obtain ⟨-, rfl⟩ := Prod.mk.inj heq
          exact popFront hq'
      | popBack l =>
          obtain ⟨⟨y, q'⟩, hq', heq⟩ := map_eq_ok.1 hq
          obtain ⟨-, rfl⟩ := Prod.mk.inj heq
          exact popBack hq'
      | remove l x =>
          obtain ⟨-, hq'⟩ := map_mk_eq_ok.1 hq
          exact remove hq'
      | tryRemove l x =>
          obtain ⟨answer, hanswer, heq⟩ := bind_eq_ok.1 hq
          rw [Pool.remove?] at hanswer
          rw [ListEdit.turnover]
          split at hanswer
          · next hx =>
              obtain ⟨q', hq', rfl⟩ := map_eq_ok.1 hanswer
              obtain ⟨-, rfl⟩ := Prod.mk.inj (Except.ok.inj heq)
              rw [if_pos hx]
              exact remove hq'
          · next hx =>
              obtain rfl := Except.ok.inj hanswer
              obtain ⟨-, rfl⟩ := Prod.mk.inj (Except.ok.inj heq)
              rw [if_neg hx]
              exact .refl p
      | swap l k =>
          obtain ⟨-, rfl⟩ := Prod.mk.inj (Except.ok.inj hq)
          exact swap p l k
      | append l k =>
          obtain ⟨-, rfl⟩ := Prod.mk.inj (Except.ok.inj hq)
          exact append (of_decide_eq_true hsound)
      | cutBefore l x k =>
          have hlk : l ≠ k := of_decide_eq_true hsound
          obtain ⟨-, hq'⟩ := map_mk_eq_ok.1 hq
          rw [ListEdit.turnover, if_neg hlk]
          exact cutBefore hlk hq'
      | cutThrough l x k =>
          have hlk : l ≠ k := of_decide_eq_true hsound
          obtain ⟨-, hq'⟩ := map_mk_eq_ok.1 hq
          rw [ListEdit.turnover, if_neg hlk]
          exact cutThrough hlk hq'
      | unlink x =>
          obtain ⟨-, rfl⟩ := Prod.mk.inj (Except.ok.inj hq)
          exact unlink he
      | shareEnds l k => exact he.elim
  · next hsound =>
      obtain ⟨-, rfl⟩ := Prod.mk.inj (Except.ok.inj hq)
      rw [ListEdit.turnover_of_not_isSound hsound]
      exact .refl p

end Reaches

end Pool

end SpanChain
