/-
**What the checks guard.**

Every write to the links of a list comes behind a check that the node it starts from is on the list.
So an operation that is given any node and any list either fails or leaves lists that are linked
along rows with no node in common.  Only what is put in must be on no list; that is not checked.

Main definitions:

* `SpanChain.ListEdit.Harmless` — what is put in is on no list;
* `SpanChain.Pool.Change`, `SpanChain.Pool.Changes` — one change of a pool, or a row of them.

Main results:

* `SpanChain.Pool.WellFormed.of_insertAfter` and its like — what each operation leaves;
* `SpanChain.Pool.Changes.preserves` — what every change keeps, a row of them keeps.
-/

import Mathlib.Logic.Relation
import SpanChain.Proofs.Rows.Edit
import SpanChain.Session.ListStep

set_option relaxedAutoImplicit false
set_option autoImplicit false

namespace SpanChain

variable {α : Type} {n m : Nat}

namespace Pool

variable {p q : Pool α n m} {l k : Fin m} {x : Fin n} {a : Option (Fin n)}

/-! ### The checks -/

theorem mem_of_checkMember {r : Unit} (h : p.checkMember l x = .ok r) : x ∈ p.members l := by
  rw [checkMember] at h
  split at h
  · next hx => rwa [contains, List.contains_iff_mem] at hx
  · contradiction

theorem mem_of_checkAnchor {r : Unit} (h : p.checkAnchor l a = .ok r) :
    ∀ y ∈ a, y ∈ p.members l := by
  rintro y ⟨⟩
  exact mem_of_checkMember h

namespace WellFormed

/-! ### One operation -/

theorem of_exists {t : Rows n m} {op : Except Fault (Pool α n m)}
    (hop : ∃ q', op = .ok q' ∧ p.Becomes p.members q' t) (hq : op = .ok q) : q.WellFormed := by
  obtain ⟨q', hq', hb⟩ := hop
  obtain rfl := Except.ok.inj (hq.symm.trans hq')
  exact hb.represents.wellFormed

theorem of_insertAfter (h : p.WellFormed) (hx : Rows.Unlisted p.members x)
    (hq : p.insertAfter l a x = .ok q) : q.WellFormed := by
  obtain ⟨_, hcheck, -⟩ := bind_eq_ok.1 hq
  exact of_exists (h.insertAfter_position (mem_of_checkAnchor hcheck) hx) hq

theorem of_insertBefore (h : p.WellFormed) (hx : Rows.Unlisted p.members x)
    (hq : p.insertBefore l a x = .ok q) : q.WellFormed := by
  obtain ⟨_, hcheck, -⟩ := bind_eq_ok.1 hq
  exact of_exists (h.insertBefore_position (mem_of_checkAnchor hcheck) hx) hq

theorem of_remove (h : p.WellFormed) (hq : p.remove l x = .ok q) : q.WellFormed := by
  obtain ⟨_, hcheck, -⟩ := bind_eq_ok.1 hq
  obtain ⟨q', hq', hb, -⟩ := h.remove_member (mem_of_checkMember hcheck)
  exact of_exists ⟨q', hq', hb⟩ hq

theorem of_cutBefore (h : p.WellFormed) (hlk : l ≠ k) (hq : p.cutBefore l x k = .ok q) :
    q.WellFormed := by
  obtain ⟨_, hcheck, -⟩ := bind_eq_ok.1 hq
  exact of_exists (h.cutBefore_member (mem_of_checkMember hcheck) hlk) hq

theorem of_cutThrough (h : p.WellFormed) (hlk : l ≠ k) (hq : p.cutThrough l x k = .ok q) :
    q.WellFormed := by
  obtain ⟨_, hcheck, -⟩ := bind_eq_ok.1 hq
  exact of_exists (h.cutThrough_member (mem_of_checkMember hcheck) hlk) hq

end WellFormed

/-! ### Changes -/

/-- One change of a pool that returned: other data for a node, or an operation on lists in which what
is put in, and what has its links cleared, is on no list. -/
inductive Change (p : Pool α n m) : Pool α n m → Prop where
  | data (x : Fin n) (d : α) : Change p (p.setData x d)
  | unlink {x : Fin n} (hx : Rows.Unlisted p.members x) : Change p (p.unlink x)
  | clear (l : Fin m) : Change p (p.clear l)
  | swap (l k : Fin m) : Change p (p.swap l k)
  | insertAfter {l : Fin m} {a : Option (Fin n)} {x : Fin n} {q : Pool α n m}
      (hx : Rows.Unlisted p.members x) (hq : p.insertAfter l a x = .ok q) : Change p q
  | insertBefore {l : Fin m} {a : Option (Fin n)} {x : Fin n} {q : Pool α n m}
      (hx : Rows.Unlisted p.members x) (hq : p.insertBefore l a x = .ok q) : Change p q
  | remove {l : Fin m} {x : Fin n} {q : Pool α n m} (hq : p.remove l x = .ok q) : Change p q
  | append {l k : Fin m} (hlk : l ≠ k) : Change p (p.append l k)
  | cutBefore {l k : Fin m} {x : Fin n} {q : Pool α n m} (hlk : l ≠ k)
      (hq : p.cutBefore l x k = .ok q) : Change p q
  | cutThrough {l k : Fin m} {x : Fin n} {q : Pool α n m} (hlk : l ≠ k)
      (hq : p.cutThrough l x k = .ok q) : Change p q

/-- Any number of changes, one after the other. -/
def Changes : Pool α n m → Pool α n m → Prop := Relation.ReflTransGen Change

/-- **A change keeps the lists linked**, whatever nodes and lists it was given. -/
theorem Change.wellFormed (hc : Change p q) (h : p.WellFormed) : q.WellFormed := by
  cases hc with
  | data x d => exact (h.setData x d).wellFormed
  | unlink hx => exact (h.unlink hx).wellFormed
  | clear l => exact (h.clear l).represents.wellFormed
  | swap l k => exact (h.swap l k).represents.wellFormed
  | insertAfter hx hq => exact h.of_insertAfter hx hq
  | insertBefore hx hq => exact h.of_insertBefore hx hq
  | remove hq => exact h.of_remove hq
  | append hlk => exact (h.append hlk).represents.wellFormed
  | cutBefore hlk hq => exact h.of_cutBefore hlk hq
  | cutThrough hlk hq => exact h.of_cutThrough hlk hq

namespace Changes

variable {t : Pool α n m}

theorem refl (p : Pool α n m) : p.Changes p := Relation.ReflTransGen.refl

theorem of_change (h : Change p q) : p.Changes q := Relation.ReflTransGen.single h

theorem trans (h : p.Changes q) (h' : q.Changes t) : p.Changes t := Relation.ReflTransGen.trans h h'

/-- **What every change of a well-formed pool keeps, a row of changes keeps.** -/
theorem preserves {P : Pool α n m → Prop}
    (hstep : ∀ p q : Pool α n m, p.WellFormed → P p → Change p q → P q) (hc : p.Changes q)
    (h : p.WellFormed) (hp : P p) : q.WellFormed ∧ P q := by
  induction hc with
  | refl => exact ⟨h, hp⟩
  | tail _ hchange ih => exact ⟨hchange.wellFormed ih.1, hstep _ _ ih.1 ih.2 hchange⟩

theorem wellFormed (hc : p.Changes q) (h : p.WellFormed) : q.WellFormed :=
  (hc.preserves (P := fun _ => True) (fun _ _ _ _ _ => trivial) h trivial).1

end Changes

end Pool

/-- A cut through a cursor is made into another list, behind a check that its node is on the list of
the cursor; without a node the other list is emptied. -/
theorem Cursor.of_cutInto {d : Direction} {p q : Pool α n m} {c c' : Cursor d n m} {tail : Fin m}
    {y : Option (Fin n)} (hq : c.cutInto p tail y = .ok (q, c')) :
    c.list ≠ tail ∧ c' = ⟨tail, y⟩ ∧
      (y = none ∧ q = p.clear tail ∨ ∃ x, y = some x ∧ p.cutFrom d c.list x tail = .ok q) := by
  rw [cutInto] at hq
  split at hq
  · contradiction
  · next htail =>
      cases y with
      | none =>
          obtain ⟨rfl, rfl⟩ := Prod.mk.inj (Except.ok.inj hq)
          exact ⟨htail, rfl, .inl ⟨rfl, rfl⟩⟩
      | some x =>
          obtain ⟨q', hq', heq⟩ := bind_eq_ok.1 hq
          obtain ⟨rfl, rfl⟩ := Prod.mk.inj (Except.ok.inj heq)
          exact ⟨htail, rfl, .inr ⟨x, rfl, hq'⟩⟩

/-! ### Harmless edits -/

namespace ListEdit

/-- What an edit puts in is on no list, a node is unlinked only when it is on no list, and no two
lists are made to describe one chain. -/
def Harmless (s : Rows n m) : ListEdit n m → Prop
  | .pushFront _ x | .pushBack _ x | .insertAfter _ _ x | .insertBefore _ _ x | .unlink x =>
    s.Unlisted x
  | .shareEnds _ _ => False
  | _ => True

instance (s : Rows n m) : DecidablePred (Harmless s)
  | .pushFront _ x | .pushBack _ x | .insertAfter _ _ x | .insertBefore _ _ x | .unlink x =>
    inferInstanceAs (Decidable (s.Unlisted x))
  | .shareEnds _ _ => inferInstanceAs (Decidable False)
  | .clear _ | .popFront _ | .popBack _ | .remove _ _ | .tryRemove _ _ | .swap _ _ | .append _ _
  | .cutBefore _ _ _ | .cutThrough _ _ _ => inferInstanceAs (Decidable True)

end ListEdit

end SpanChain
