/-
**Stale cursors.**

A cursor is not told when lists change under it, so it can be bound to any list and stand on any
node: one that was removed or dropped with its list and still has links into it, or one that has
gone to another list.  Whatever is done through it, each operation either fails or leaves lists that
are linked along rows with no node in common.

Main definitions:

* `SpanChain.Workbench` — lists, with cursors on nodes and on bytes side by side;
* `SpanChain.Workbench.Tame` — the rules: what is put in is on no list;
* `SpanChain.ListSession.turnover` — which nodes a step puts on lists and takes off.

Main results:

* `SpanChain.Cursor.reaches_insertAfter` and its like — what one operation through a cursor changes;
* `SpanChain.ListSession.reaches_step`, `SpanChain.BufferSession.changes_step`,
  `SpanChain.Workbench.changes_step` — what one step of a session changes;
* `SpanChain.stale_cursors_keep_lists` — **a whole run**.
-/

import SpanChain.Proofs.Rows.Turnover
import SpanChain.Proofs.Rules
import SpanChain.Session.Buffers
import SpanChain.Session.Lists

set_option relaxedAutoImplicit false
set_option autoImplicit false

namespace SpanChain

variable {α : Type} {n m j k : Nat}

/-! ### One operation through a cursor on nodes -/

namespace Cursor

variable {d : Direction} {p q : Pool α n m} {c c' : Cursor d n m} {x : Fin n} {tail : Fin m}
  {y : Option (Fin n)}

theorem reaches_insertAfter (hx : Rows.Unlisted p.members x)
    (hq : c.insertAfter p x = .ok (q, c')) : p.Reaches q (.insert x) := by
  obtain ⟨q', hq', heq⟩ := bind_eq_ok.1 hq
  obtain ⟨rfl, -⟩ := Prod.mk.inj (Except.ok.inj heq)
  cases d with
  | forward => exact .insertAfter hx hq'
  | backward => exact .insertBefore hx hq'

theorem reaches_insertBefore (hx : Rows.Unlisted p.members x)
    (hq : c.insertBefore p x = .ok q) : p.Reaches q (.insert x) := by
  cases d with
  | forward => exact .insertBefore hx hq
  | backward => exact .insertAfter hx hq

theorem reaches_remove (hq : c.remove p = .ok (y, q, c')) :
    p.Reaches q (c.node.elim .keep .remove) := by
  rw [remove] at hq
  split at hq
  · next x hx =>
      obtain ⟨q', hq', heq⟩ := bind_eq_ok.1 hq
      obtain ⟨-, hpair⟩ := Prod.mk.inj (Except.ok.inj heq)
      obtain ⟨rfl, -⟩ := Prod.mk.inj hpair
      rw [hx]
      exact .remove hq'
  · next hx =>
      obtain ⟨-, hpair⟩ := Prod.mk.inj (Except.ok.inj hq)
      obtain ⟨rfl, -⟩ := Prod.mk.inj hpair
      rw [hx]
      exact .refl p

/-- A split writes only behind a node that was found on the list, or empties the tail. -/
theorem reaches_cutInto (hq : c.cutInto p tail y = .ok (q, c')) :
    p.Reaches q (.drop (p.members tail)) := by
  obtain ⟨htail, -, ⟨-, rfl⟩ | ⟨x, -, hq'⟩⟩ := of_cutInto hq
  · exact .clear p tail
  · cases d with
    | forward => exact .cutBefore htail hq'
    | backward => exact .cutThrough htail hq'

end Cursor

/-! ### One operation through a cursor on bytes -/

namespace ByteCursor

variable {p q : Pool Span n m} {c c' : ByteCursor n m} {x e : Fin n} {tail : Fin m}
  {extra : Option (Fin n)}

/-- The span of the cursor's node and the spare node are written to before any check, but neither
write touches a link of a node on a list. -/
theorem changes_splitInside (h : p.WellFormed) (he : Rows.Unlisted p.members e)
    (hq : c.splitInside p tail x e = .ok (q, c')) : p.Changes q := by
  -- both halves, the insertion and the cut, in the order in which they are made
  obtain ⟨head, -, hq⟩ := bind_eq_ok.1 hq
  obtain ⟨back, -, hq⟩ := bind_eq_ok.1 hq
  obtain ⟨⟨q₁, place₁⟩, hq₁, hq⟩ := bind_eq_ok.1 hq
  obtain ⟨⟨q₂, place₂⟩, hq₂, heq⟩ := bind_eq_ok.1 hq
  obtain ⟨rfl, -⟩ := Prod.mk.inj (Except.ok.inj heq)
  have hhead : (p.setData x head).Represents p.members := h.setData x head
  have hrenew : ((p.setData x head).renew e back).Represents p.members :=
    (hhead.unlink he).setData e back
  have hspans : p.Changes ((p.setData x head).renew e back) :=
    .trans (.of_change (.data x head))
      (.trans (.of_change (.unlink (by rwa [hhead.members_eq]))) (.of_change (.data e back)))
  have hinsert := Cursor.reaches_insertAfter (by rwa [hrenew.members_eq]) hq₁
  exact (hspans.trans hinsert.changes).trans (Cursor.reaches_cutInto hq₂).changes

theorem changes_splitAt {split : Split n} (h : p.WellFormed)
    (hextra : ∀ e ∈ extra, Rows.Unlisted p.members e)
    (hq : c.splitAt p tail extra = .ok (.ok (split, q, c'))) : p.Changes q := by
  unfold splitAt at hq
  split at hq
  · next x e _ =>
      obtain ⟨⟨q', c''⟩, hq', heq⟩ := bind_eq_ok.1 hq
      obtain ⟨-, hpair⟩ := Prod.mk.inj (Except.ok.inj (Except.ok.inj heq))
      obtain ⟨rfl, -⟩ := Prod.mk.inj hpair
      exact changes_splitInside h (hextra e rfl) hq'
  · obtain hq := Except.ok.inj hq
    contradiction
  · obtain ⟨⟨q', place⟩, hq', heq⟩ := bind_eq_ok.1 hq
    obtain ⟨-, hpair⟩ := Prod.mk.inj (Except.ok.inj (Except.ok.inj heq))
    obtain ⟨rfl, -⟩ := Prod.mk.inj hpair
    exact (Cursor.reaches_cutInto hq').changes

/-- The link to the node in front may be stale, but only that node's span is written to. -/
theorem changes_joinBack {y : Option (Fin n)} (hq : c.joinBack p = .ok (y, q, c')) :
    p.Changes q := by
  rw [joinBack] at hq
  split at hq
  · obtain ⟨-, hpair⟩ := Prod.mk.inj (Except.ok.inj hq)
    obtain ⟨rfl, -⟩ := Prod.mk.inj hpair
    exact .refl p
  · next y x _ =>
      dsimp only at hq
      split at hq
      · obtain ⟨⟨z, q', place⟩, hq', hq⟩ := bind_eq_ok.1 hq
        obtain ⟨offset, -, heq⟩ := bind_eq_ok.1 hq
        obtain ⟨-, hpair⟩ := Prod.mk.inj (Except.ok.inj heq)
        obtain ⟨rfl, -⟩ := Prod.mk.inj hpair
        exact (Pool.Changes.of_change (.data y _)).trans (Cursor.reaches_remove hq').changes
      · contradiction

end ByteCursor

/-! ### One step of a session with cursors on nodes -/

namespace ListSession

variable {s : ListSession α n m k} {d : Direction} {slot : Fin k} {c : Cursor d n m}
  {o : Outcome α n (ListSession α n m k)}

/-- What a step through a cursor puts in is on no list. -/
def TameThrough (s : ListSession α n m k) : CursorStep n m k → Prop
  | .insertAfter x | .insertBefore x => Rows.Unlisted s.pool.members x
  | _ => True

instance (s : ListSession α n m k) : DecidablePred s.TameThrough
  | .insertAfter x | .insertBefore x => inferInstanceAs (Decidable (Rows.Unlisted s.pool.members x))
  | .advance | .remove | .cutBefore _ | .cutAfter _ | .finish | .flip _ | .copy _ | .equals _
  | .isBoundTo _ | .isActive | .node | .text => inferInstanceAs (Decidable True)

/-- What a step puts in is on no list. -/
def Tame (s : ListSession α n m k) : Step α n m k → Prop
  | .edit e => e.Harmless s.pool.members
  | .through _ t => s.TameThrough t
  | .pushRange _ _ _ => False
  | _ => True

instance (s : ListSession α n m k) : DecidablePred s.Tame
  | .edit e => inferInstanceAs (Decidable (e.Harmless s.pool.members))
  | .through _ t => inferInstanceAs (Decidable (s.TameThrough t))
  | .pushRange _ _ _ => inferInstanceAs (Decidable False)
  | .query _ | .values _ | .datum _ | .setDatum _ _ | .linkPair _ _ | .start _ _ _ | .onNode _ _ _ _
  | .tryOnNode _ _ _ _ | .appendAtSeam _ _ _ | .senseless => inferInstanceAs (Decidable True)

/-- The turnover of a step through a cursor. -/
def CursorStep.turnover (p : Pool α n m) {d : Direction} (c : Cursor d n m) :
    CursorStep n m k → Turnover n
  | .remove => c.node.elim .keep .remove
  | .insertAfter x | .insertBefore x => .insert x
  | .cutBefore tail | .cutAfter tail => .drop (p.members tail)
  | .advance | .finish | .flip _ | .copy _ | .equals _ | .isBoundTo _ | .isActive | .node | .text =>
    .keep

/-- The turnover of a step. -/
def turnover (s : ListSession α n m k) : Step α n m k → Turnover n
  | .edit e => e.turnover s.pool
  | .through slot t =>
    match s.slots.get slot with
    | some c => t.turnover s.pool c.cursor
    | none => .keep
  | _ => .keep

theorem reaches_store (slot : Option (Fin k)) :
    s.pool.Reaches (s.store slot c).state.pool .keep := by
  cases slot <;> exact .refl s.pool

theorem reaches_stepThrough {t : CursorStep n m k} (ht : s.TameThrough t)
    (ho : s.stepThrough slot c t = .ok o) : s.pool.Reaches o.state.pool (t.turnover s.pool c) := by
  cases t with
  | advance =>
      obtain ⟨c', -, heq⟩ := bind_eq_ok.1 ho
      obtain rfl := Except.ok.inj heq
      exact .refl s.pool
  | remove =>
      obtain ⟨⟨x, q, c'⟩, hq, heq⟩ := bind_eq_ok.1 ho
      obtain rfl := Except.ok.inj heq
      exact Cursor.reaches_remove hq
  | insertAfter x =>
      obtain ⟨⟨q, c'⟩, hq, heq⟩ := bind_eq_ok.1 ho
      obtain rfl := Except.ok.inj heq
      exact Cursor.reaches_insertAfter ht hq
  | insertBefore x =>
      obtain ⟨q, hq, heq⟩ := bind_eq_ok.1 ho
      obtain rfl := Except.ok.inj heq
      exact Cursor.reaches_insertBefore ht hq
  | cutBefore tail =>
      obtain ⟨⟨q, c'⟩, hq, heq⟩ := bind_eq_ok.1 ho
      obtain rfl := Except.ok.inj heq
      exact Cursor.reaches_cutInto hq
  | cutAfter tail =>
      obtain ⟨⟨q, c'⟩, hq, heq⟩ := bind_eq_ok.1 ho
      obtain rfl := Except.ok.inj heq
      exact Cursor.reaches_cutInto hq
  -- all others leave the pool alone
  | _ =>
      obtain rfl := Except.ok.inj ho
      exact .refl s.pool

/-- **A step that returns has made harmless changes only, with its turnover**, whatever cursors are
in the slots. -/
theorem reaches_step {t : Step α n m k} (ht : s.Tame t) (ho : s.step t = .ok o) :
    s.pool.Reaches o.state.pool (s.turnover t) := by
  cases t with
  | edit e =>
      obtain ⟨⟨r, q⟩, hq, rfl⟩ := map_eq_ok.1 ho
      exact .of_apply ht hq
  | pushRange l start stop => exact ht.elim
  | setDatum x d =>
      obtain rfl := Except.ok.inj ho
      exact .setData s.pool x d
  | start slot d l =>
      obtain rfl := Except.ok.inj ho
      exact reaches_store slot
  | onNode slot d l x =>
      obtain ⟨c, -, heq⟩ := bind_eq_ok.1 ho
      obtain rfl := Except.ok.inj heq
      exact reaches_store slot
  | tryOnNode slot d l x =>
      simp only [step] at ho
      split at ho
      · obtain rfl := Except.ok.inj ho
        exact reaches_store slot
      · obtain rfl := Except.ok.inj ho
        exact .refl s.pool
  | through slot t =>
      cases hc : s.slots.get slot with
      | some c =>
          simp only [step, hc] at ho
          simp only [turnover, hc]
          exact reaches_stepThrough ht ho
      | none =>
          simp only [step, hc] at ho
          obtain rfl := Except.ok.inj ho
          simp only [turnover, hc]
          exact .refl s.pool
  | appendAtSeam l tail slot =>
      simp only [step] at ho
      split at ho
      · obtain rfl := Except.ok.inj ho
        exact .refl s.pool
      · next hlt =>
          split at ho
          · obtain rfl := Except.ok.inj ho
            exact .append hlt
          · split at ho
            · obtain rfl := Except.ok.inj ho
              exact .append hlt
            · obtain rfl := Except.ok.inj ho
              exact .refl s.pool
  | _ =>
      obtain rfl := Except.ok.inj ho
      exact .refl s.pool

end ListSession

/-! ### One step of a session with cursors on bytes -/

namespace BufferSession

variable {s : BufferSession n m k} {slot : Fin k} {c : ByteCursor n m}
  {o : Outcome Span n (BufferSession n m k)}

/-- A spare node of a split is on no list. -/
def TameThrough (s : BufferSession n m k) : CursorStep n m k → Prop
  | .splitAt _ extra => ∀ e ∈ extra, Rows.Unlisted s.pool.members e
  | _ => True

instance (s : BufferSession n m k) : DecidablePred s.TameThrough
  | .splitAt _ extra => inferInstanceAs (Decidable (∀ e ∈ extra, Rows.Unlisted s.pool.members e))
  | .isActive | .node | .offset | .finish | .rest | .remaining | .text | .isBoundTo _ | .advance _
  | .writeByte _ | .readByte | .write _ | .copyInto _ | .copyTo _ _ | .joinBack | .copy _
  | .samePlace _ => inferInstanceAs (Decidable True)

/-- What a step puts in, and a node whose links it clears, is on no list. -/
def Tame (s : BufferSession n m k) : Step n m k → Prop
  | .edit e => e.Harmless s.pool.members
  | .through _ t => s.TameThrough t
  | .renew x _ => Rows.Unlisted s.pool.members x
  | .pushRange _ _ _ | .build _ _ _ _ => False
  | _ => True

instance (s : BufferSession n m k) : DecidablePred s.Tame
  | .edit e => inferInstanceAs (Decidable (e.Harmless s.pool.members))
  | .through _ t => inferInstanceAs (Decidable (s.TameThrough t))
  | .renew x _ => inferInstanceAs (Decidable (Rows.Unlisted s.pool.members x))
  | .pushRange _ _ _ | .build _ _ _ _ => inferInstanceAs (Decidable False)
  | .query _ | .capacity _ | .chainText _ | .spans _ _ | .setSpan _ _ | .described _ | .nodeText _
  | .start _ _ | .appendAtSeam _ _ _ | .senseless => inferInstanceAs (Decidable True)

theorem changes_splitAt (h : s.pool.WellFormed) {tail : Fin m} {extra : Option (Fin n)}
    (hextra : ∀ e ∈ extra, Rows.Unlisted s.pool.members e)
    (ho : s.splitAt slot c tail extra = .ok o) : s.pool.Changes o.state.pool := by
  obtain ⟨result, hresult, ho⟩ := bind_eq_ok.1 ho
  cases result with
  | error r =>
      obtain rfl := Except.ok.inj ho
      exact .refl s.pool
  | ok r =>
      obtain ⟨split, q, c'⟩ := r
      obtain rfl := Except.ok.inj ho
      exact ByteCursor.changes_splitAt h hextra hresult

theorem changes_stepThrough (h : s.pool.WellFormed) {t : CursorStep n m k}
    (ht : s.TameThrough t) (ho : s.stepThrough slot c t = .ok o) :
    s.pool.Changes o.state.pool := by
  cases t with
  | rest =>
      obtain ⟨r, -, rfl⟩ := map_eq_ok.1 ho
      exact .refl s.pool
  | remaining =>
      obtain ⟨r, -, rfl⟩ := map_eq_ok.1 ho
      exact .refl s.pool
  | advance count =>
      obtain ⟨⟨c', moved⟩, -, heq⟩ := bind_eq_ok.1 ho
      obtain rfl := Except.ok.inj heq
      exact .refl s.pool
  | writeByte b =>
      obtain ⟨⟨count, mem, c'⟩, -, heq⟩ := bind_eq_ok.1 ho
      obtain rfl := Except.ok.inj heq
      exact .refl s.pool
  | readByte =>
      obtain ⟨⟨b, c'⟩, -, heq⟩ := bind_eq_ok.1 ho
      obtain rfl := Except.ok.inj heq
      exact .refl s.pool
  | write row =>
      obtain ⟨⟨count, mem, c'⟩, -, heq⟩ := bind_eq_ok.1 ho
      obtain rfl := Except.ok.inj heq
      exact .refl s.pool
  | copyInto dst =>
      obtain ⟨⟨count, bytes, c'⟩, -, heq⟩ := bind_eq_ok.1 ho
      obtain rfl := Except.ok.inj heq
      exact .refl s.pool
  | copyTo dst count =>
      simp only [stepThrough] at ho
      split at ho
      · split at ho
        · obtain rfl := Except.ok.inj ho
          exact .refl s.pool
        · obtain ⟨⟨copied, mem, c', e'⟩, -, heq⟩ := bind_eq_ok.1 ho
          obtain rfl := Except.ok.inj heq
          exact .refl s.pool
      · obtain rfl := Except.ok.inj ho
        exact .refl s.pool
  | splitAt tail extra => exact changes_splitAt h ht ho
  | joinBack =>
      obtain ⟨⟨x, q, c'⟩, hq, heq⟩ := bind_eq_ok.1 ho
      obtain rfl := Except.ok.inj heq
      exact ByteCursor.changes_joinBack hq
  -- all others leave the pool alone
  | _ =>
      obtain rfl := Except.ok.inj ho
      exact .refl s.pool

/-- **A step that returns has made harmless changes only**, whatever cursors are in the slots. -/
theorem changes_step (h : s.pool.WellFormed) {t : Step n m k} (ht : s.Tame t)
    (ho : s.step t = .ok o) : s.pool.Changes o.state.pool := by
  cases t with
  | edit e =>
      obtain ⟨⟨r, q⟩, hq, heq⟩ := bind_eq_ok.1 ho
      obtain rfl := Except.ok.inj heq
      exact (Pool.Reaches.of_apply ht hq).changes
  | pushRange l start stop => exact ht.elim
  | build l first offset lens => exact ht.elim
  | capacity l =>
      obtain ⟨r, -, rfl⟩ := map_eq_ok.1 ho
      exact .refl s.pool
  | renew x span =>
      obtain rfl := Except.ok.inj ho
      exact (Pool.Changes.of_change (.unlink ht)).trans (.of_change (.data x span))
  | setSpan x span =>
      obtain rfl := Except.ok.inj ho
      exact .of_change (.data x span)
  | start slot l =>
      obtain rfl := Except.ok.inj ho
      cases slot <;> exact .refl s.pool
  | through slot t =>
      simp only [step] at ho
      split at ho
      · exact changes_stepThrough h ht ho
      · obtain rfl := Except.ok.inj ho
        exact .refl s.pool
  | appendAtSeam l tail slot =>
      simp only [step] at ho
      split at ho
      · obtain rfl := Except.ok.inj ho
        exact .refl s.pool
      · next hlt =>
          split at ho
          · obtain rfl := Except.ok.inj ho
            exact .of_change (.append hlt)
          · split at ho
            · obtain rfl := Except.ok.inj ho
              exact .of_change (.append hlt)
            · obtain rfl := Except.ok.inj ho
              exact .refl s.pool
  | _ =>
      obtain rfl := Except.ok.inj ho
      exact .refl s.pool

end BufferSession

/-! ### Cursors side by side -/

/-- Lists and a memory, with slots for cursors on nodes and slots for cursors on bytes. -/
structure Workbench (n m j k : Nat) where
  /-- The nodes and the lists. -/
  pool : Pool Span n m
  /-- The memory. -/
  memory : Memory
  /-- The slots for cursors on nodes. -/
  cursors : Vector (Option (AnyCursor n m)) j
  /-- The slots for cursors on bytes. -/
  byteCursors : Vector (Option (ByteCursor n m)) k

namespace Workbench

/-- What a session with cursors on nodes sees. -/
def lists (w : Workbench n m j k) : ListSession Span n m j := ⟨w.pool, w.cursors⟩

/-- What a session with cursors on bytes sees. -/
def buffers (w : Workbench n m j k) : BufferSession n m k := ⟨w.pool, w.memory, w.byteCursors⟩

/-- A step of either session. -/
abbrev Step (n m j k : Nat) := ListSession.Step Span n m j ⊕ BufferSession.Step n m k

/-- The outcome of a step, which leaves the slots of the other kind alone. -/
def step (w : Workbench n m j k) : Step n m j k → Except Fault (Outcome Span n (Workbench n m j k))
  | .inl t => Outcome.map (fun s => ⟨s.pool, w.memory, s.slots, w.byteCursors⟩) <$> w.lists.step t
  | .inr t => Outcome.map (fun s => ⟨s.pool, s.memory, w.cursors, s.slots⟩) <$> w.buffers.step t

/-- What a step puts in is on no list. -/
def Tame (w : Workbench n m j k) : Step n m j k → Prop
  | .inl t => w.lists.Tame t
  | .inr t => w.buffers.Tame t

instance (w : Workbench n m j k) : DecidablePred w.Tame
  | .inl t => inferInstanceAs (Decidable (w.lists.Tame t))
  | .inr t => inferInstanceAs (Decidable (w.buffers.Tame t))

/-- **A step of either session that returns has made harmless changes only.** -/
theorem changes_step {w : Workbench n m j k} {t : Step n m j k}
    {o : Outcome Span n (Workbench n m j k)} (h : w.pool.WellFormed) (ht : w.Tame t)
    (ho : w.step t = .ok o) : w.pool.Changes o.state.pool := by
  cases t with
  | inl t =>
      obtain ⟨o', ho', rfl⟩ := map_eq_ok.1 ho
      exact (ListSession.reaches_step (s := w.lists) ht ho').changes
  | inr t =>
      obtain ⟨o', ho', rfl⟩ := map_eq_ok.1 ho
      exact BufferSession.changes_step (s := w.buffers) h ht ho'

theorem wellFormed_of_step {w : Workbench n m j k} {t : Step n m j k}
    {o : Outcome Span n (Workbench n m j k)} (h : w.pool.WellFormed) (ht : w.Tame t)
    (ho : w.step t = .ok o) : o.state.pool.WellFormed :=
  (changes_step h ht ho).wellFormed h

end Workbench

/-- **A stale cursor never corrupts a list.**  The slots hold any cursors at the start: bound to any
list, on any node, with any offset.  As long as nothing is put in that is on a list already, all
lists are linked along rows with no node in common after every step of a run, which ends at the
first fault. -/
theorem stale_cursors_keep_lists {w : Workbench n m j k} {steps : List (Workbench.Step n m j k)}
    (h : w.pool.WellFormed) (hrules : Session.KeepsTo Workbench.step Workbench.Tame w steps) :
    (∀ o ∈ (Session.run Workbench.step w steps).1, o.state.pool.WellFormed) ∧
      ∀ final, (Session.run Workbench.step w steps).2 = .ok final → final.pool.WellFormed := by
  have hstep : ∀ (w : Workbench n m j k) (t : Workbench.Step n m j k)
      (o : Outcome Span n (Workbench n m j k)), w.pool.WellFormed → w.Tame t → w.step t = .ok o →
      o.state.pool.WellFormed := fun _ _ _ => Workbench.wellFormed_of_step
  exact Session.run_invariant hstep h hrules

/-- Cursors of three kinds stand on nodes that were dropped or moved, behind what their spans
have, or on no list that they are bound to. -/
theorem stale_cursors_keep_lists_dropped_nodes :
    let pool : Pool Span 6 3 :=
      ⟨#v[⟨⟨some 1, none⟩, ⟨.inMemory 0, 3, by decide⟩⟩,
          ⟨⟨some 2, some 0⟩, ⟨.inMemory 3, 4, by decide⟩⟩,
          ⟨⟨none, some 1⟩, .empty⟩,
          ⟨⟨none, none⟩, ⟨.inMemory 10, 2, by decide⟩⟩,
          ⟨⟨some 1, some 3⟩, ⟨.inMemory 8, 2, by decide⟩⟩,
          ⟨⟨some 4, some 2⟩, .empty⟩],
        #v[⟨some 0, some 2⟩, ⟨some 3, some 3⟩, ⟨none, none⟩]⟩
    let w : Workbench 6 3 2 2 :=
      ⟨pool, .pattern 12 0 1, #v[some ⟨.forward, 0, some 4⟩, some ⟨.backward, 1, some 5⟩],
        #v[some ⟨⟨0, some 1⟩, 9⟩, some ⟨⟨2, some 5⟩, 0⟩]⟩
    let steps : List (Workbench.Step 6 3 2 2) :=
      [.inl (.through 0 (.cutAfter 2)), .inr (.through 0 .joinBack),
        .inr (.appendAtSeam 0 2 (some 1)), .inr (.through 1 .joinBack), .inl (.through 1 .advance),
        .inl (.through 0 .advance), .inl (.through 1 (.insertAfter 5))]
    pool.WellFormed ∧
      (∀ o ∈ (Session.run Workbench.step w steps).1, o.state.pool.WellFormed) ∧
        ∀ final, (Session.run Workbench.step w steps).2 = .ok final → final.pool.WellFormed :=
  ⟨by decide, stale_cursors_keep_lists (by decide) (by decide +kernel)⟩

end SpanChain
