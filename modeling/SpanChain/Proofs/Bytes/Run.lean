/-
**Sessions with a byte cursor.**

A session works with one byte cursor, the main one, and moves, reads, writes, splits and joins
through it; a second cursor serves for copying alone and is made anew whenever the chains were cut
or joined.  As long as the caller keeps to these rules no step fails, and the main cursor is never
on an empty span, behind a span's last byte or off its list.

Main definitions:

* `SpanChain.BufferSession.Permits` — the rules;
* `SpanChain.BufferSession.CopiesFresh` — copies are made only while the second cursor is fresh;
* `SpanChain.BufferSession.Sound` — the invariant;
* `SpanChain.BufferSession.Shows` — what can be looked at through the main cursor.

Main results:

* `SpanChain.BufferSession.Sound.step`, `SpanChain.BufferSession.Sound.run` — a permitted step, and
  a run of such steps, succeeds and keeps the invariant;
* `SpanChain.cursor_session_never_fails` — **so does a session** that begins with a fresh cursor.
-/

import SpanChain.Proofs.Bytes.Described
import SpanChain.Proofs.Bytes.Join
import SpanChain.Proofs.Bytes.Pieces
import SpanChain.Proofs.Rows.Run
import SpanChain.Proofs.Rules

set_option relaxedAutoImplicit false
set_option autoImplicit false

namespace SpanChain

variable {n m k : Nat}

/-! ### Insertions -/

namespace ListEdit

/-- The node that an edit inserts. -/
def inserted? : ListEdit n m → Option (Fin n)
  | .pushFront _ x | .pushBack _ x | .insertAfter _ _ x | .insertBefore _ _ x => some x
  | _ => none

variable {s : Rows n m} {e : ListEdit n m} {x : Fin n}

/-- An insertion puts its node into a cut of one row. -/
theorem onRows_of_inserted (he : e.Allowed s) (hx : e.inserted? = some x) :
    s.Unlisted x ∧ ∃ l u v, s l = u ++ v ∧ e.onRows s = s.set l (u ++ x :: v) := by
  cases e with
  | pushFront l y =>
      obtain rfl := Option.some.inj hx
      exact ⟨he, l, [], s l, rfl, rfl⟩
  | pushBack l y =>
      obtain rfl := Option.some.inj hx
      exact ⟨he, l, s l, [], (List.append_nil _).symm, rfl⟩
  | insertAfter l anchor y =>
      obtain rfl := Option.some.inj hx
      obtain ⟨u, v, hs, -, hrow⟩ := Row.exists_cut_behind he.1
      exact ⟨he.2, l, u, v, hs, by rw [onRows, hrow]⟩
  | insertBefore l anchor y =>
      obtain rfl := Option.some.inj hx
      obtain ⟨u, v, hs, -, hrow⟩ := Row.exists_cut_ahead he.1
      exact ⟨he.2, l, u, v, hs, by rw [onRows, hrow]⟩
  | _ => contradiction

end ListEdit

/-- A cursor stays valid where its list has kept its nodes and these what they carry. -/
theorem ByteCursor.Valid.mono {p q : Pool Span n m} {c : ByteCursor n m} (hc : c.Valid p)
    (hmem : ∀ x ∈ p.members c.list, x ∈ q.members c.list ∧ q.data x = p.data x) : c.Valid q := by
  rcases hc with hc | ⟨x, hx, hnode, hoff⟩
  · exact .inl hc
  · exact .inr ⟨x, (hmem x hx).1, hnode, by rwa [Pool.len, (hmem x hx).2]⟩

namespace BufferSession

/-! ### The rules -/

variable (region : Address → Prop) (main other : Fin k)

/-- The rules for steps through the main cursor: a split is made into another list, with a spare
node that is on no list, and copies are made to the second cursor. -/
def PermitsThrough (s : BufferSession n m k) : CursorStep n m k → Prop
  | .advance _ | .writeByte _ | .readByte | .write _ | .copyInto _ | .rest | .remaining | .finish
  | .joinBack => True
  | .copyTo dst _ => dst = other
  | .splitAt tail extra =>
    (∀ c ∈ s.slots.get main, tail ≠ c.list) ∧ ∀ e ∈ extra, Rows.Unlisted s.pool.members e
  | _ => False

instance (s : BufferSession n m k) : DecidablePred (s.PermitsThrough main other)
  | .advance _ | .writeByte _ | .readByte | .write _ | .copyInto _ | .rest | .remaining | .finish
  | .joinBack => inferInstanceAs (Decidable True)
  | .copyTo dst _ => inferInstanceAs (Decidable (dst = other))
  | .splitAt tail extra =>
    inferInstanceAs (Decidable ((∀ c ∈ s.slots.get main, tail ≠ c.list) ∧
      ∀ e ∈ extra, Rows.Unlisted s.pool.members e))
  | .isActive | .node | .offset | .text | .isBoundTo _ | .copy _ | .samePlace _ =>
    inferInstanceAs (Decidable False)

/-- The slot that a step copies bytes to. -/
def CursorStep.copiesTo? : CursorStep n m k → Option (Fin k)
  | .copyTo dst _ => some dst
  | _ => none

/-- The rules of a session.  The second cursor serves as a source of copies alone and can be made
anew.  Inserted nodes are on no list; all bytes remain as many as a size can tell, and within the
region.  A node on no list may be made to describe anything. -/
def Permits (s : BufferSession n m k) : Step n m k → Prop
  | .through slot t =>
    slot = main ∧ s.PermitsThrough main other t ∨ slot = other ∧ t.copiesTo? = some main
  | .appendAtSeam l tail slot => l ≠ tail ∧ slot = some main
  | .start slot _ => slot = some other
  | .edit e =>
    e.Allowed s.pool.members ∧ ∃ x ∈ e.inserted?,
      s.pool.total + s.pool.len x < sizeLimit ∧ ∀ a ∈ (s.pool.data x).addresses, region a
  | .renew x _ => Rows.Unlisted s.pool.members x
  | _ => False

instance [DecidablePred region] (s : BufferSession n m k) :
    DecidablePred (s.Permits region main other)
  | .through slot t =>
    inferInstanceAs (Decidable (slot = main ∧ s.PermitsThrough main other t ∨
      slot = other ∧ t.copiesTo? = some main))
  | .appendAtSeam l tail slot => inferInstanceAs (Decidable (l ≠ tail ∧ slot = some main))
  | .start slot _ => inferInstanceAs (Decidable (slot = some other))
  | .edit e =>
    inferInstanceAs (Decidable (e.Allowed s.pool.members ∧ ∃ x ∈ e.inserted?,
      s.pool.total + s.pool.len x < sizeLimit ∧ ∀ a ∈ (s.pool.data x).addresses, region a))
  | .renew x _ => inferInstanceAs (Decidable (Rows.Unlisted s.pool.members x))
  | .query _ | .pushRange _ _ _ | .capacity _ | .chainText _ | .spans _ _ | .build _ _ _ _
  | .setSpan _ _ | .described _ | .nodeText _ | .senseless => inferInstanceAs (Decidable False)

/-- Whether the second cursor is fresh after a step: it is if it has just been made, and it is no
longer once a chain is split or chains or spans are joined. -/
def Step.freshAfter (fresh : Bool) : Step n m k → Bool
  | .start _ _ => true
  | .appendAtSeam _ _ _ | .through _ (.splitAt _ _) | .through _ .joinBack => false
  | _ => fresh

/-- Whether a step copies from cursor to cursor. -/
def Step.isCopy : Step n m k → Bool
  | .through _ t => t.copiesTo?.isSome
  | _ => false

/-- Copies are made only while the second cursor is fresh. -/
def CopiesFresh : Bool → List (Step n m k) → Prop
  | _, [] => True
  | fresh, t :: steps => (t.isCopy = true → fresh = true) ∧ CopiesFresh (t.freshAfter fresh) steps

instance decidableCopiesFresh :
    (fresh : Bool) → (steps : List (Step n m k)) → Decidable (CopiesFresh fresh steps)
  | _, [] => inferInstanceAs (Decidable True)
  | fresh, t :: steps =>
    have := decidableCopiesFresh (t.freshAfter fresh) steps
    inferInstanceAs (Decidable ((t.isCopy = true → fresh = true) ∧
      CopiesFresh (t.freshAfter fresh) steps))

/-! ### The invariant -/

/-- The slot holds a valid cursor. -/
def Holds (s : BufferSession n m k) (slot : Fin k) : Prop :=
  ∃ c, s.slots.get slot = some c ∧ c.Valid s.pool

/-- The state of a session with a main cursor. -/
structure Sound (s : BufferSession n m k) : Prop where
  /-- All lists are linked along rows that have no node in common. -/
  wellFormed : s.pool.WellFormed
  /-- The main cursor has finished, or stands on a member of its list in front of a byte. -/
  cursor : s.Holds main
  /-- All bytes together are as many as a size can tell. -/
  fits : s.pool.total < sizeLimit
  /-- All addresses that are described lie within the region. -/
  inside : ∀ l, ∀ a ∈ s.pool.addresses l, region a

/-- What is left of the main cursor's span can be looked at.  It is empty only when the cursor has
finished, and lies within the region. -/
def Shows (s : BufferSession n m k) : Prop :=
  ∃ c r, s.slots.get main = some c ∧ c.rest s.pool = .ok r ∧ (r.len = 0 ↔ c.node = none) ∧
    ∀ a ∈ r.addresses, region a

/-! ### Slots -/

section Lemmas

variable {s : BufferSession n m k} {main other : Fin k} {region : Address → Prop}
  {slot i : Fin k} {c c' : ByteCursor n m} {p q : Pool Span n m} {mem : Memory} {fresh : Bool}

@[simp] theorem reply_answer (r : Reply Span n) : (s.answer r).reply = r := rfl

@[simp] theorem reply_withPool (r : Reply Span n × Pool Span n m) :
    (s.withPool r).reply = r.1 := rfl

theorem holds_put (hc : c.Valid s.pool) : (s.put slot c).Holds slot :=
  ⟨c, slots_put_self, hc⟩

theorem Holds.put_of_ne (h : s.Holds i) (hne : i ≠ slot) : (s.put slot c).Holds i := by
  obtain ⟨e, he, hv⟩ := h
  exact ⟨e, (slots_put_of_ne hne).trans he, hv⟩

/-- A pool in which all lists have kept their nodes, and these what they carry, keeps cursors
valid. -/
theorem Holds.setPool (h : s.Holds i)
    (hmem : ∀ l, ∀ x ∈ s.pool.members l, x ∈ q.members l ∧ q.data x = s.pool.data x) :
    (s.setPool q).Holds i := by
  obtain ⟨e, he, hv⟩ := h
  exact ⟨e, he, hv.mono (hmem e.list)⟩

/-! ### States that keep the invariant -/

theorem Sound.shows (h : s.Sound region main) : s.Shows region main := by
  obtain ⟨c, hslot, hc⟩ := h.cursor
  obtain ⟨r, hr, hstart, hnil⟩ := c.rest_eq h.wellFormed hc
  refine ⟨c, r, hslot, hr, hnil.trans (hc.ahead_eq_nil_iff h.wellFormed), fun a ha => ?_⟩
  exact h.inside c.list a ((ByteCursor.ahead_suffix h.wellFormed hc).subset (hstart.subset ha))

/-- The pool is left alone and the main cursor moves. -/
theorem Sound.moved (h : s.Sound region main) (hc : c.Valid s.pool) (mem : Memory) :
    ((s.setMemory mem).put main c).Sound region main :=
  ⟨h.wellFormed, holds_put hc, h.fits, h.inside⟩

/-- The second cursor is put into its slot. -/
theorem Sound.put_other (h : s.Sound region main) (hne : main ≠ other) :
    (s.put other c).Sound region main :=
  ⟨h.wellFormed, h.cursor.put_of_ne hne, h.fits, h.inside⟩

/-- The chains are cut or joined, and nothing is described that was not described before. -/
theorem Sound.reshaped (h : s.Sound region main) (hq : q.WellFormed) (hc : c.Valid q)
    (hd : q.described ≤ s.pool.described) : ((s.setPool q).put main c).Sound region main := by
  refine ⟨hq, holds_put hc, Nat.lt_of_le_of_lt (Pool.total_le hd) h.fits, fun l a ha => ?_⟩
  have hmem : a ∈ s.pool.described := Multiset.mem_of_le hd (Pool.mem_described.2 ⟨l, ha⟩)
  obtain ⟨j, hj⟩ := Pool.mem_described.1 hmem
  exact h.inside j a hj

/-! ### One step -/

variable {o : Outcome Span n (BufferSession n m k)}

/-- What is to be shown of the outcome of a step: it was carried out, the invariant holds and the
second cursor is valid as long as it is fresh. -/
structure Good (region : Address → Prop) (main other : Fin k) (fresh : Bool)
    (o : Outcome Span n (BufferSession n m k)) : Prop where
  /-- The step made sense. -/
  carried_out : o.reply ≠ .invalid
  /-- The invariant holds. -/
  sound : o.state.Sound region main
  /-- A fresh second cursor is valid. -/
  second : fresh = true → o.state.Holds other

theorem Sound.good_of_moved (h : s.Sound region main) (hother : fresh = true → s.Holds other)
    (hne : main ≠ other) (hc : c.Valid s.pool) (mem : Memory) {r : Reply Span n}
    (hr : r ≠ .invalid) :
    Good region main other fresh (((s.setMemory mem).put main c).answer r) :=
  ⟨hr, h.moved hc mem, fun hf => (hother hf).put_of_ne hne.symm⟩

theorem Sound.good_of_kept (h : s.Sound region main) (hother : fresh = true → s.Holds other)
    {r : Reply Span n} (hr : r ≠ .invalid) : Good region main other fresh (s.answer r) :=
  ⟨hr, h, hother⟩

theorem Sound.splitAt (h : s.Sound region main) (hc : c.Valid s.pool) {tail : Fin m}
    {extra : Option (Fin n)} (htail : tail ≠ c.list)
    (hextra : ∀ e ∈ extra, Rows.Unlisted s.pool.members e) :
    ∃ o, s.splitAt main c tail extra = .ok o ∧ Good region main other false o := by
  have hsplits : ∀ {split q c'}, c.Splits s.pool tail extra split q c' →
      ((s.setPool q).put main c').Sound region main := by
    intro split q c' hs
    refine h.reshaped hs.wellFormed hs.valid ?_
    rw [← hs.described htail]
    exact Multiset.le_add_right ..
  rw [BufferSession.splitAt]
  rcases Nat.eq_zero_or_pos c.offset with h0 | h0
  · obtain ⟨split, q, c', heq, hs⟩ := c.splitAt_aligned h.wellFormed hc htail hextra h0
    rw [heq]
    exact ⟨_, rfl, by simp, hsplits hs, by simp⟩
  · cases extra with
    | none =>
        rw [ByteCursor.splitAt_declined hc h0]
        exact ⟨_, rfl, by simp, h, by simp⟩
    | some e =>
        obtain ⟨q, c', heq, hs⟩ := c.splitAt_unaligned h.wellFormed hc htail (hextra e rfl) h0
        rw [heq]
        exact ⟨_, rfl, by simp, hsplits hs, by simp⟩

/-- A copy between the two cursors, in either direction, moves both. -/
theorem Sound.copyTo (h : s.Sound region main) (hne : main ≠ other) {e : ByteCursor n m}
    (hc : c.Valid s.pool) (he : e.Valid s.pool) (mem : Memory) {r : Reply Span n}
    (hr : r ≠ .invalid) :
    Good region main other fresh ((((s.setMemory mem).put main c).put other e).answer r) :=
  ⟨hr, (h.moved hc mem).put_other hne, fun _ => holds_put he⟩

/-- A permitted step through the main cursor succeeds. -/
theorem Sound.stepThrough (h : s.Sound region main) (hne : main ≠ other)
    (hother : fresh = true → s.Holds other) (hslot : s.slots.get main = some c)
    (hc : c.Valid s.pool) {t : CursorStep n m k} (hp : s.PermitsThrough main other t)
    (hfresh : (Step.through main t).isCopy = true → fresh = true) :
    ∃ o, s.stepThrough main c t = .ok o ∧
      Good region main other ((Step.through main t).freshAfter fresh) o := by
  cases t with
  | finish =>
      exact ⟨_, rfl, h.good_of_moved hother hne (.inl ⟨rfl, rfl⟩) s.memory (by simp)⟩
  | rest =>
      obtain ⟨r, hr, -, -⟩ := c.rest_eq h.wellFormed hc
      exact ⟨_, by rw [BufferSession.stepThrough, hr]; rfl, h.good_of_kept hother (by simp)⟩
  | remaining =>
      have hfit := Nat.lt_of_le_of_lt (s.pool.length_addresses_le_total c.list) h.fits
      have hr := c.remaining_eq h.wellFormed hc hfit
      exact ⟨_, by rw [BufferSession.stepThrough, hr]; rfl, h.good_of_kept hother (by simp)⟩
  | advance count =>
      obtain ⟨c', hc', hm⟩ := c.advance_eq h.wellFormed hc count
      exact ⟨_, by rw [BufferSession.stepThrough, hc']; rfl,
        h.good_of_moved hother hne hm.valid s.memory (by simp)⟩
  | writeByte b =>
      obtain ⟨count, mem, c', hc', hm⟩ := c.writeByte_eq s.memory h.wellFormed hc b
      exact ⟨_, by rw [BufferSession.stepThrough, hc']; rfl,
        h.good_of_moved hother hne hm.valid mem (by simp)⟩
  | readByte =>
      obtain ⟨b, c', hc', hm⟩ := c.readByte_eq s.memory h.wellFormed hc
      exact ⟨_, by rw [BufferSession.stepThrough, hc']; rfl,
        h.good_of_moved hother hne hm.valid s.memory (by simp)⟩
  | write row =>
      obtain ⟨c', hc', hm⟩ := c.write_eq s.memory h.wellFormed hc row
      exact ⟨_, by rw [BufferSession.stepThrough, hc']; rfl,
        h.good_of_moved hother hne hm.valid _ (by simp)⟩
  | copyInto dst =>
      obtain ⟨c', hc', hm⟩ := c.copyInto_eq s.memory h.wellFormed hc dst
      exact ⟨_, by rw [BufferSession.stepThrough, hc']; rfl,
        h.good_of_moved hother hne hm.valid s.memory (by simp)⟩
  | copyTo dst count =>
      obtain rfl : dst = other := hp
      obtain ⟨e, he, hv⟩ := hother (hfresh rfl)
      obtain ⟨bs, c', e', moved, heq, -, hmc, hme, -⟩ :=
        c.copyTo_eq s.memory h.wellFormed hc hv count
      generalize s.memory.storeAt ((e.ahead s.pool).take moved) bs = mem at heq
      refine ⟨_, ?_, h.copyTo hne hmc.valid hme.valid mem (r := .wrote moved mem) (by simp)⟩
      simp only [BufferSession.stepThrough, he, if_neg hne, heq, bind, Except.bind, pure,
        Except.pure]
  | splitAt tail extra => exact h.splitAt hc (hp.1 c hslot) hp.2
  | joinBack =>
      have hfit := Nat.lt_of_le_of_lt (s.pool.length_addresses_le_total c.list) h.fits
      obtain ⟨removed, q, c', heq, hj⟩ := c.joinBack_eq h.wellFormed hc hfit
      have hd : q.described = s.pool.described :=
        Finset.sum_congr rfl fun l _ => by rw [hj.addresses]
      refine ⟨_, by rw [BufferSession.stepThrough, heq]; rfl, ⟨?_, ?_, by simp [Step.freshAfter]⟩⟩
      · simp
      · exact h.reshaped hj.wellFormed hj.valid hd.le
  | _ => exact hp.elim

/-- An insertion adds its node to one list and leaves the cursors where they are. -/
theorem Sound.insert (h : s.Sound region main) (hother : fresh = true → s.Holds other)
    {e : ListEdit n m} {x : Fin n} (he : e.Allowed s.pool.members) (hx : e.inserted? = some x)
    (hfits : s.pool.total + s.pool.len x < sizeLimit)
    (hinside : ∀ a ∈ (s.pool.data x).addresses, region a) :
    ∃ o, s.step (.edit e) = .ok o ∧ Good region main other fresh o := by
  obtain ⟨-, l, u, v, hs, hrows⟩ := ListEdit.onRows_of_inserted he hx
  obtain ⟨q, hq, href⟩ := ListEdit.apply_refines h.wellFormed he
  have hb := href.becomes
  rw [hrows] at hb
  have hd := hb.described_insert h.wellFormed hs
  -- no node leaves its row, so the cursors stay valid without being moved
  have hmem : ∀ j, ∀ y ∈ s.pool.members j, y ∈ q.members j ∧ q.data y = s.pool.data y := by
    intro j y hy
    refine ⟨?_, hb.data y⟩
    rw [hb.represents.members_eq]
    by_cases hj : j = l
    · subst hj
      rw [hs] at hy
      rw [Rows.set_self]
      rcases List.mem_append.1 hy with hy | hy
      · exact List.mem_append_left _ hy
      · exact List.mem_append_right _ (List.mem_cons_of_mem _ hy)
    · rwa [Rows.set_of_ne hj]
  have hreply : (e.answer s.pool.members : Reply Span n) ≠ .invalid := by
    cases e <;> first | contradiction | simp [ListEdit.answer]
  refine ⟨_, by rw [BufferSession.step, hq]; rfl, hreply, ⟨hb.represents.wellFormed,
    h.cursor.setPool hmem, ?_, fun j a ha => ?_⟩, fun hf => (hother hf).setPool hmem⟩
  · have htotal : q.total = s.pool.total + s.pool.len x := by
      rw [Pool.total_eq_card, hd, Multiset.card_add, ← Pool.total_eq_card, Multiset.coe_card,
        s.pool.length_addresses_data]
    exact htotal ▸ hfits
  · have hmem' : a ∈ q.described := Pool.mem_described.2 ⟨j, ha⟩
    rw [hd, Multiset.mem_add, Multiset.mem_coe] at hmem'
    rcases hmem' with hold | hnew
    · obtain ⟨j', hj'⟩ := Pool.mem_described.1 hold
      exact h.inside j' a hj'
    · exact hinside a hnew

/-- A node on no list comes to describe another span. -/
theorem Sound.renew (h : s.Sound region main) (hother : fresh = true → s.Holds other) {x : Fin n}
    (hx : Rows.Unlisted s.pool.members x) (span : Span) :
    Good region main other fresh (s.withPool (.done, s.pool.renew x span)) := by
  have hrep : (s.pool.renew x span).Represents s.pool.members :=
    (h.wellFormed.unlink hx).setData x span
  have hdata : ∀ l, ∀ y ∈ s.pool.members l, (s.pool.renew x span).data y = s.pool.data y := by
    intro l y hy
    have hyx : y ≠ x := fun e => hx l (e ▸ hy)
    simp [Pool.renew, hyx]
  have haddr : ∀ l, (s.pool.renew x span).addresses l = s.pool.addresses l := by
    intro l
    rw [hrep.addresses_eq, h.wellFormed.addresses_eq, Pool.rowAddresses_congr (hdata l)]
  have hmem : ∀ l, ∀ y ∈ s.pool.members l, y ∈ (s.pool.renew x span).members l ∧
      (s.pool.renew x span).data y = s.pool.data y := by
    intro l y hy
    exact ⟨by rwa [hrep.members_eq], hdata l y hy⟩
  refine ⟨by simp, ⟨hrep.wellFormed, h.cursor.setPool hmem, ?_, fun l a ha => ?_⟩,
    fun hf => (hother hf).setPool hmem⟩
  · have htotal : (s.pool.renew x span).total = s.pool.total := by
      rw [Pool.total_eq_card, Pool.total_eq_card, Pool.described, Pool.described]
      simp only [haddr]
    exact htotal ▸ h.fits
  · exact h.inside l a (haddr l ▸ ha)

/-- **A permitted step succeeds and keeps the invariant.** -/
theorem Sound.step (h : s.Sound region main) (hne : main ≠ other)
    (hother : fresh = true → s.Holds other) {t : Step n m k}
    (hp : s.Permits region main other t) (hfresh : t.isCopy = true → fresh = true) :
    ∃ o, s.step t = .ok o ∧ Good region main other (t.freshAfter fresh) o := by
  obtain ⟨c, hslot, hc⟩ := h.cursor
  cases t with
  | through slot t =>
      rcases hp with ⟨rfl, hp⟩ | ⟨rfl, hp⟩
      · obtain ⟨o, ho, hgood⟩ := h.stepThrough hne hother hslot hc hp hfresh
        exact ⟨o, by simp only [BufferSession.step, hslot, ho], hgood⟩
      · -- through the second cursor there are copies to the main one and nothing else
        cases t with
        | copyTo dst count =>
            obtain rfl : dst = main := Option.some.inj hp
            obtain ⟨e, he, hv⟩ := hother (hfresh rfl)
            obtain ⟨bs, e', c', moved, heq, -, hme, hmc, -⟩ :=
              e.copyTo_eq s.memory h.wellFormed hv hc count
            generalize s.memory.storeAt ((c.ahead s.pool).take moved) bs = mem at heq
            refine ⟨_, ?_, h.copyTo hne hmc.valid hme.valid mem (r := .wrote moved mem) (by simp)⟩
            simp only [BufferSession.step, he, BufferSession.stepThrough, hslot, if_neg hne.symm,
              heq, bind, Except.bind, pure, Except.pure, put_comm hne]
        | _ => contradiction
  | appendAtSeam l tail slot =>
      obtain ⟨hlt, rfl⟩ := hp
      have hb := h.wellFormed.append hlt
      refine ⟨_, by simp only [BufferSession.step, if_neg hlt, hslot]; rfl, ⟨?_, ?_, ?_⟩⟩
      · simp
      · exact h.reshaped hb.represents.wellFormed (ByteCursor.valid_seam h.wellFormed hlt)
          (hb.described_append h.wellFormed hlt).le
      · simp [Step.freshAfter]
  | start slot l =>
      obtain rfl : slot = some other := hp
      exact ⟨_, rfl, by simp, h.put_other hne,
        fun _ => holds_put (ByteCursor.valid_start h.wellFormed l)⟩
  | edit e =>
      obtain ⟨he, x, hx, hfits, hinside⟩ := hp
      exact h.insert hother he hx hfits hinside
  | renew x span => exact ⟨_, rfl, h.renew hother hp span⟩
  | _ => exact hp.elim

/-! ### A run -/

/-- A run that keeps to the rules succeeds, and the invariant holds after each of its steps. -/
theorem Sound.run {steps : List (Step n m k)} (h : s.Sound region main) (hne : main ≠ other)
    (hother : fresh = true → s.Holds other)
    (hrules : Session.KeepsTo BufferSession.step
      (fun s t => s.Permits region main other t) s steps)
    (hfresh : CopiesFresh fresh steps) :
    ∃ outcomes final, Session.run BufferSession.step s steps = (outcomes, .ok final) ∧
      ∀ o ∈ outcomes, o.reply ≠ .invalid ∧ o.state.Sound region main := by
  -- whether the second cursor is fresh changes along the run, so the induction is over all of it
  induction steps generalizing s fresh with
  | nil => exact ⟨[], s, rfl, by simp⟩
  | cons t steps ih =>
      obtain ⟨o, ho, hgood⟩ := h.step hne hother hrules.1 hfresh.1
      obtain ⟨outcomes, final, hrun, hall⟩ :=
        ih hgood.sound hgood.second (hrules.tail ho) hfresh.2
      refine ⟨o :: outcomes, final, Session.run_cons_of_run _ ho hrun, fun o' ho' => ?_⟩
      rcases List.mem_cons.1 ho' with rfl | hmem
      · exact ⟨hgood.carried_out, hgood.sound⟩
      · exact hall o' hmem

end Lemmas

end BufferSession

/-! ### A session -/

/-- **No step of a session fails that keeps to the rules, and its main cursor is valid in every
state.**  The session begins with a cursor at the start of a list; all bytes together are as many as
a size can tell, and within a region such as the memory. -/
theorem cursor_session_never_fails {s : BufferSession n m k} {main other : Fin k}
    {region : Address → Prop} {l : Fin m} {fresh : Bool}
    {steps : List (BufferSession.Step n m k)} (hne : main ≠ other) (h : s.pool.WellFormed)
    (hstart : s.slots.get main = some (ByteCursor.start s.pool l))
    (hfits : s.pool.total < sizeLimit) (hinside : ∀ l, ∀ a ∈ s.pool.addresses l, region a)
    (hother : fresh = true → s.Holds other)
    (hrules : Session.KeepsTo BufferSession.step
      (fun s t => s.Permits region main other t) s steps)
    (hfresh : BufferSession.CopiesFresh fresh steps) :
    ∃ outcomes final, Session.run BufferSession.step s steps = (outcomes, .ok final) ∧
      ∀ o ∈ outcomes, o.reply ≠ .invalid ∧ o.state.Sound region main ∧
        o.state.Shows region main := by
  have hsound : s.Sound region main :=
    ⟨h, ⟨_, hstart, ByteCursor.valid_start h l⟩, hfits, hinside⟩
  obtain ⟨outcomes, final, hrun, hall⟩ := hsound.run hne hother hrules hfresh
  refine ⟨outcomes, final, hrun, fun o ho => ?_⟩
  obtain ⟨hcarried, ho⟩ := hall o ho
  exact ⟨hcarried, ho, ho.shows⟩

/-- A span is joined to the one in front of it and cut again elsewhere; the node that became free is
put to use again. -/
theorem cursor_session_never_fails_reused_node :
    let pool : Pool Span 6 3 :=
      ⟨#v[⟨⟨some 1, none⟩, ⟨.inMemory 0, 3, by decide⟩⟩,
          ⟨⟨some 2, some 0⟩, ⟨.inMemory 3, 4, by decide⟩⟩,
          ⟨⟨none, some 1⟩, .empty⟩,
          ⟨⟨none, none⟩, ⟨.inMemory 10, 2, by decide⟩⟩,
          ⟨⟨some 0, some 3⟩, ⟨.inMemory 8, 2, by decide⟩⟩,
          ⟨⟨some 1, none⟩, .empty⟩],
        #v[⟨some 0, some 2⟩, ⟨some 3, some 3⟩, ⟨none, none⟩]⟩
    let memory : Memory := .pattern 12 0 1
    let s : BufferSession 6 3 2 := ⟨pool, memory, #v[some (.start pool 0), none]⟩
    let region : Address → Prop := fun a => (memory.index? a).isSome = true
    let steps : List (BufferSession.Step 6 3 2) :=
      [.through 0 (.advance 4), .through 0 .joinBack, .start (some 1) 1, .through 0 (.copyTo 1 1),
        .through 0 (.splitAt 2 (some 5)), .edit (.insertAfter 2 (some 5) 4),
        .renew 1 ⟨.inMemory 11, 1, by decide⟩, .edit (.pushFront 0 1), .start (some 1) 0,
        .through 1 (.copyTo 0 2), .appendAtSeam 0 2 (some 0), .through 0 (.write [7, 8, 9]),
        .through 0 .readByte, .through 0 .remaining]
    pool.WellFormed ∧ pool.total < sizeLimit ∧ (∀ l, ∀ a ∈ pool.addresses l, region a) ∧
      ∃ outcomes final, Session.run BufferSession.step s steps = (outcomes, .ok final) ∧
        ∀ o ∈ outcomes, o.reply ≠ .invalid ∧ o.state.Sound region 0 ∧ o.state.Shows region 0 :=
  ⟨by decide, by decide, by decide +kernel,
    cursor_session_never_fails (l := 0) (by decide : (0 : Fin 2) ≠ 1) (by decide) rfl (by decide)
      (by decide +kernel) (fun h : false = true => absurd h Bool.false_ne_true)
      (by decide +kernel) (by decide)⟩

end SpanChain
