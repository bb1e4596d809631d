/-
**Lists in a mirror.**

The mirror exchanges what follows a node with what precedes it and the first node of a list with the
last.  A list is seen in it back to front, and a cursor walks the other way.  Every operation of a
cursor does in the mirror what the operation of the same name does to the mirrored lists, up to the
node that is handed back and the fault that it ends in; so a backward cursor is a forward one, seen
in the mirror.

Main definitions:

* `SpanChain.Pool.mirror`, `SpanChain.ListSession.mirror` — lists, and a session, in the mirror;
* `SpanChain.ListSession.Walking` — the steps that are taken through cursors.

Main results:

* `SpanChain.Pool.Represents.mirror` — the rows in the mirror are the rows back to front;
* `SpanChain.Pool.linkBetween_mirror`, `SpanChain.Pool.cutThrough_mirror` and their like — the
  operations on lists, which are pairs or go with themselves;
* `SpanChain.Cursor.remove_mirror` and its like — the operations through a cursor;
* `SpanChain.walks_are_mirrored` — **a whole session**.
-/

import SpanChain.Proofs.Cursors.Stale

set_option relaxedAutoImplicit false
set_option autoImplicit false

namespace SpanChain

variable {α : Type} {n m k : Nat}

/-! ### Pools in the mirror -/

/-- The two links of a node, exchanged. -/
def Link.mirror (v : Link n) : Link n := ⟨v.prev, v.next⟩

/-- The two ends of a list, exchanged. -/
def Ends.mirror (e : Ends n) : Ends n := ⟨e.last, e.first⟩

namespace Pool

/-- The pool with the links of every node and the ends of every list exchanged. -/
def mirror (p : Pool α n m) : Pool α n m :=
  ⟨p.nodes.map fun v => { v with link := v.link.mirror }, p.lists.map Ends.mirror⟩

section Lemmas

variable (p : Pool α n m) (l : Fin m) (x : Fin n) (a y : Option (Fin n)) (e : Ends n)

@[simp] theorem next_mirror : p.mirror.next x = p.prev x := by
  simp [mirror, next, prev, Link.mirror]

@[simp] theorem prev_mirror : p.mirror.prev x = p.next x := by
  simp [mirror, next, prev, Link.mirror]

@[simp] theorem data_mirror : p.mirror.data x = p.data x := by
  simp [mirror, data]

@[simp] theorem ends_mirror : p.mirror.ends l = (p.ends l).mirror := by
  simp [mirror, ends]

@[simp] theorem first_mirror : p.mirror.first l = p.last l := by
  rw [first, ends_mirror]; rfl

@[simp] theorem last_mirror : p.mirror.last l = p.first l := by
  rw [last, ends_mirror]; rfl

@[simp] theorem after_mirror : p.mirror.after l a = p.before l a := by
  cases a <;> simp

@[simp] theorem before_mirror : p.mirror.before l a = p.after l a := by
  cases a <;> simp

@[simp] theorem mirror_mirror : p.mirror.mirror = p :=
  Pool.ext (by simp) (by simp) (by simp) (by simp) (by simp)

/-! ### Writes in the mirror -/

theorem mirror_setNext : (p.setNext x y).mirror = p.mirror.setPrev x y :=
  Pool.ext (by simp) (by simp) (by simp) (by simp) (by simp)

theorem mirror_setPrev : (p.setPrev x y).mirror = p.mirror.setNext x y :=
  Pool.ext (by simp) (by simp) (by simp) (by simp) (by simp)

theorem mirror_setEnds : (p.setEnds l e).mirror = p.mirror.setEnds l e.mirror :=
  Pool.ext (by simp) (by simp) (by simp) (by simp [Ends.mirror]) (by simp [Ends.mirror])

theorem mirror_setFirst : (p.setFirst l y).mirror = p.mirror.setLast l y :=
  Pool.ext (by simp) (by simp) (by simp) (by simp) (by simp)

theorem mirror_setLast : (p.setLast l y).mirror = p.mirror.setFirst l y :=
  Pool.ext (by simp) (by simp) (by simp) (by simp) (by simp)

theorem mirror_clear : (p.clear l).mirror = p.mirror.clear l := mirror_setEnds ..

theorem mirror_unlink : (p.unlink x).mirror = p.mirror.unlink x :=
  Pool.ext (by simp) (by simp) (by simp) (by simp) (by simp)

theorem mirror_setAfter : (p.setAfter l a y).mirror = p.mirror.setBefore l a y := by
  cases a with
  | none => exact mirror_setFirst ..
  | some z => exact mirror_setNext ..

theorem mirror_setBefore : (p.setBefore l a y).mirror = p.mirror.setAfter l a y := by
  cases a with
  | none => exact mirror_setLast ..
  | some z => exact mirror_setPrev ..

end Lemmas

/-! ### Rows in the mirror -/

variable {p : Pool α n m} {s : Rows n m} {l j : Fin m} {x : Fin n} {a b : Option (Fin n)}
  {u : Row n}

/-- A stretch is linked back to front. -/
theorem Linked.mirror (h : p.Linked l a u b) : p.mirror.Linked l b u.reverse a := by
  induction u generalizing a with
  | nil => exact ⟨by simpa using h.2, by simpa using h.1⟩
  | cons x u ih =>
      rw [List.reverse_cons, linked_append_cons]
      exact ⟨ih h.2, by simpa [linked_nil] using h.1.symm⟩

/-- **The rows in the mirror are the rows back to front.** -/
theorem Represents.mirror (h : p.Represents s) : p.mirror.Represents fun l => (s l).reverse := by
  refine ⟨fun l => (h.linked l).mirror, fun l => ?_, fun {l k x} hl hk => ?_⟩
  · exact List.nodup_reverse.2 (h.apart.nodup l)
  · exact h.apart.same_row (List.mem_reverse.1 hl) (List.mem_reverse.1 hk)

/-- A walk finds the same nodes on a list from either of its ends. -/
theorem WellFormed.contains_mirror (h : p.WellFormed) : p.mirror.contains l x = p.contains l x := by
  rw [Bool.eq_iff_iff, (Represents.mirror h).contains_iff, Represents.contains_iff h,
    List.mem_reverse]

theorem WellFormed.checkMember_mirror (h : p.WellFormed) :
    p.mirror.checkMember l x = p.checkMember l x := by
  rw [checkMember, h.contains_mirror, checkMember]

theorem WellFormed.checkAnchor_mirror (h : p.WellFormed) :
    p.mirror.checkAnchor l a = p.checkAnchor l a := by
  cases a with
  | none => rfl
  | some x => exact h.checkMember_mirror

/-! ### Operations in the mirror -/

/-- A node is linked in between the same two positions, which have changed sides. -/
theorem linkBetween_mirror (p : Pool α n m) (l : Fin m) (a : Option (Fin n)) (x : Fin n)
    (b : Option (Fin n)) :
    p.mirror.linkBetween l b x a = mirror <$> p.linkBetween l a x b := by
  rw [linkBetween, linkBetween]
  by_cases hx : some x = a ∨ some x = b
  · rw [if_pos hx, if_pos hx.symm]
    rfl
  · rw [if_neg hx, if_neg fun h => hx h.symm]
    exact congrArg Except.ok (Pool.ext (by simp) (by simp) (by simp) (by simp) (by simp))

theorem insertAfter_mirror (h : p.WellFormed) (l : Fin m) (a : Option (Fin n)) (x : Fin n) :
    p.mirror.insertBefore l a x = mirror <$> p.insertAfter l a x := by
  rw [insertBefore, insertAfter, h.checkAnchor_mirror, before_mirror]
  cases p.checkAnchor l a with
  | error e => rfl
  | ok _ => exact p.linkBetween_mirror l a x (p.after l a)

theorem insertBefore_mirror (h : p.WellFormed) (l : Fin m) (a : Option (Fin n)) (x : Fin n) :
    p.mirror.insertAfter l a x = mirror <$> p.insertBefore l a x := by
  rw [insertAfter, insertBefore, h.checkAnchor_mirror, after_mirror]
  cases p.checkAnchor l a with
  | error e => rfl
  | ok _ => exact p.linkBetween_mirror l (p.before l a) x a

theorem bypass_mirror (p : Pool α n m) (l : Fin m) (x : Fin n) :
    p.mirror.bypass l x = (p.bypass l x).mirror := by
  rw [bypass, bypass, mirror_unlink, mirror_setBefore, mirror_setAfter, prev_mirror, next_mirror]
  -- the two neighbours are tied to each other in the other order
  exact Pool.ext (by simp) (by simp) (by simp) (by simp) (by simp)

theorem remove_mirror (h : p.WellFormed) (l : Fin m) (x : Fin n) :
    p.mirror.remove l x = mirror <$> p.remove l x := by
  rw [remove, remove, h.checkMember_mirror]
  cases p.checkMember l x with
  | error e => rfl
  | ok _ => exact congrArg Except.ok (p.bypass_mirror l x)

theorem cutThrough_mirror (h : p.WellFormed) (l : Fin m) (x : Fin n) (j : Fin m) :
    p.mirror.cutBefore l x j = mirror <$> p.cutThrough l x j := by
  rw [cutBefore_eq, cutThrough_eq, h.checkMember_mirror]
  cases p.checkMember l x with
  | error e => rfl
  | ok _ =>
      refine congrArg Except.ok ?_
      simp only [mirror_setEnds, mirror_setNext, mirror_setFirst, mirror_setBefore, prev_mirror,
        last_mirror, Ends.mirror]

theorem cutBefore_mirror (h : p.WellFormed) (l : Fin m) (x : Fin n) (j : Fin m) :
    p.mirror.cutThrough l x j = mirror <$> p.cutBefore l x j := by
  rw [cutBefore_eq, cutThrough_eq, h.checkMember_mirror]
  cases p.checkMember l x with
  | error e => rfl
  | ok _ =>
      refine congrArg Except.ok ?_
      simp only [mirror_setEnds, mirror_setPrev, mirror_setLast, mirror_setAfter, next_mirror,
        first_mirror, Ends.mirror]

/-! ### Walking orders in the mirror -/

variable (d : Direction)

@[simp] theorem follow_mirror (p : Pool α n m) (x : Fin n) :
    p.mirror.follow d.opposite x = p.follow d x := by
  cases d <;> simp [Direction.opposite]

@[simp] theorem start_mirror (p : Pool α n m) (l : Fin m) :
    p.mirror.start d.opposite l = p.start d l := by
  cases d <;> simp [Direction.opposite]

theorem insertBeyond_mirror (h : p.WellFormed) (l : Fin m) (a : Option (Fin n)) (x : Fin n) :
    p.mirror.insertBeyond d.opposite l a x = mirror <$> p.insertBeyond d l a x := by
  cases d with
  | forward => exact insertAfter_mirror h l a x
  | backward => exact insertBefore_mirror h l a x

theorem insertAhead_mirror (h : p.WellFormed) (l : Fin m) (a : Option (Fin n)) (x : Fin n) :
    p.mirror.insertAhead d.opposite l a x = mirror <$> p.insertAhead d l a x := by
  cases d with
  | forward => exact insertBefore_mirror h l a x
  | backward => exact insertAfter_mirror h l a x

theorem cutFrom_mirror (h : p.WellFormed) (l : Fin m) (x : Fin n) (j : Fin m) :
    p.mirror.cutFrom d.opposite l x j = mirror <$> p.cutFrom d l x j := by
  cases d with
  | forward => exact cutBefore_mirror h l x j
  | backward => exact cutThrough_mirror h l x j

end Pool

/-! ### Operations through a cursor -/

namespace Cursor

variable {d : Direction} {p : Pool α n m} (c : Cursor d n m)

theorem start_mirror (p : Pool α n m) (l : Fin m) :
    start d.opposite p.mirror l = (start d p l).flip := by
  rw [start, Pool.start_mirror]
  rfl

theorem advance_mirror (p : Pool α n m) : c.flip.advance p.mirror = flip <$> c.advance p := by
  obtain ⟨l, a⟩ := c
  cases a with
  | none => rfl
  | some x => simp [advance, flip]

/-- What an operation leaves, in the mirror. -/
def mirrorPair (r : Pool α n m × Cursor d n m) : Pool α n m × Cursor d.opposite n m :=
  (r.1.mirror, r.2.flip)

theorem remove_mirror (h : p.WellFormed) :
    c.flip.remove p.mirror = Prod.map id mirrorPair <$> c.remove p := by
  obtain ⟨l, a⟩ := c
  cases a with
  | none => rfl
  | some x =>
      simp only [remove, flip, Pool.remove_mirror h, Pool.follow_mirror]
      cases p.remove l x <;> rfl

theorem insertAfter_mirror (h : p.WellFormed) (x : Fin n) :
    c.flip.insertAfter p.mirror x = mirrorPair <$> c.insertAfter p x := by
  simp only [insertAfter, flip, Pool.insertBeyond_mirror d h]
  cases p.insertBeyond d c.list c.node x <;> rfl

theorem insertBefore_mirror (h : p.WellFormed) (x : Fin n) :
    c.flip.insertBefore p.mirror x = Pool.mirror <$> c.insertBefore p x :=
  Pool.insertAhead_mirror d h c.list c.node x

theorem cutInto_mirror (h : p.WellFormed) (tail : Fin m) (y : Option (Fin n)) :
    c.flip.cutInto p.mirror tail y = mirrorPair <$> c.cutInto p tail y := by
  rw [cutInto, cutInto]
  by_cases htail : c.list = tail
  · have htail' : c.flip.list = tail := htail
    rw [if_pos htail, if_pos htail']
    rfl
  · have htail' : c.flip.list ≠ tail := htail
    rw [if_neg htail, if_neg htail']
    cases y with
    | none =>
        rw [← p.mirror_clear tail]
        rfl
    | some x =>
        have hcut : p.mirror.cutFrom d.opposite c.flip.list x tail = _ :=
          Pool.cutFrom_mirror d h c.list x tail
        simp only [hcut]
        cases p.cutFrom d c.list x tail <;> rfl

theorem cutBefore_mirror (h : p.WellFormed) (tail : Fin m) :
    c.flip.cutBefore p.mirror tail = mirrorPair <$> c.cutBefore p tail :=
  c.cutInto_mirror h tail c.node

theorem cutAfter_mirror (h : p.WellFormed) (tail : Fin m) :
    c.flip.cutAfter p.mirror tail = mirrorPair <$> c.cutAfter p tail := by
  have hfollow : p.mirror.follow d.opposite = p.follow d := funext fun x => p.follow_mirror d x
  rw [cutAfter, hfollow]
  exact c.cutInto_mirror h tail _

end Cursor

/-! ### Steps of a session -/

/-- A cursor at the same place that walks the other way. -/
def AnyCursor.flip (c : AnyCursor n m) : AnyCursor n m := ⟨c.direction.opposite, c.cursor.flip⟩

namespace ListSession

/-- The session with its lists in the mirror.  Every cursor is where it was and walks the other
way. -/
def mirror (s : ListSession α n m k) : ListSession α n m k :=
  ⟨s.pool.mirror, s.slots.map (Option.map AnyCursor.flip)⟩

/-- The step of the same name in the mirror.  Only a new cursor brings a direction of its own. -/
def Step.mirror : Step α n m k → Step α n m k
  | .start slot d l => .start slot d.opposite l
  | t => t

/-- A cursor moves, or something is removed, put in or split off through it; what is put in is on no
list. -/
def WalkingThrough (s : ListSession α n m k) : CursorStep n m k → Prop
  | .advance | .remove | .cutBefore _ | .cutAfter _ => True
  | .insertAfter x | .insertBefore x => Rows.Unlisted s.pool.members x
  | _ => False

instance (s : ListSession α n m k) : DecidablePred s.WalkingThrough
  | .advance | .remove | .cutBefore _ | .cutAfter _ => inferInstanceAs (Decidable True)
  | .insertAfter x | .insertBefore x => inferInstanceAs (Decidable (Rows.Unlisted s.pool.members x))
  | .finish | .flip _ | .copy _ | .equals _ | .isBoundTo _ | .isActive | .node | .text =>
    inferInstanceAs (Decidable False)

/-- The steps that make a new cursor or go through one. -/
def Walking (s : ListSession α n m k) : Step α n m k → Prop
  | .start _ _ _ => True
  | .through _ t => s.WalkingThrough t
  | _ => False

instance (s : ListSession α n m k) : DecidablePred s.Walking
  | .start _ _ _ => inferInstanceAs (Decidable True)
  | .through _ t => inferInstanceAs (Decidable (s.WalkingThrough t))
  | .edit _ | .query _ | .pushRange _ _ _ | .values _ | .datum _ | .setDatum _ _ | .linkPair _ _
  | .onNode _ _ _ _ | .tryOnNode _ _ _ _ | .appendAtSeam _ _ _ | .senseless =>
    inferInstanceAs (Decidable False)

variable {s : ListSession α n m k} {d : Direction} {slot : Fin k} {c : Cursor d n m}

theorem Walking.tame {t : Step α n m k} (h : s.Walking t) : s.Tame t := by
  cases t with
  | start slot d l => trivial
  | through slot t =>
      cases t with
      | insertAfter x => exact h
      | insertBefore x => exact h
      | _ => trivial
  | _ => exact h.elim

theorem mirror_put : (s.put slot c).mirror = s.mirror.put slot c.flip := by
  simp only [mirror, put, Vector.map_set]
  rfl

theorem get_mirror : s.mirror.slots.get slot = (s.slots.get slot).map AnyCursor.flip :=
  Vector.getElem_map ..

/-- The outcome of a step that has moved a cursor and left another pool. -/
theorem mirror_outcome (r : Reply α n) (q : Pool α n m) :
    (((s.setPool q).put slot c).answer r).map mirror =
      ((s.mirror.setPool q.mirror).put slot c.flip).answer r := by
  rw [answer, Outcome.map, mirror_put]
  rfl

theorem mirror_stepThrough (h : s.pool.WellFormed) {t : CursorStep n m k}
    (ht : s.WalkingThrough t) :
    s.mirror.stepThrough slot c.flip t = Outcome.map mirror <$> s.stepThrough slot c t := by
  have hpool : s.mirror.pool = s.pool.mirror := rfl
  cases t with
  | advance =>
      rw [stepThrough, stepThrough, hpool, Cursor.advance_mirror]
      cases c.advance s.pool with
      | error e => rfl
      | ok c' => exact congrArg Except.ok (mirror_outcome .done s.pool).symm
  | remove =>
      rw [stepThrough, stepThrough, hpool, Cursor.remove_mirror c h]
      cases c.remove s.pool with
      | error e => rfl
      | ok r => exact congrArg Except.ok (mirror_outcome (.node r.1) r.2.1).symm
  | insertAfter x =>
      rw [stepThrough, stepThrough, hpool, Cursor.insertAfter_mirror c h]
      cases c.insertAfter s.pool x with
      | error e => rfl
      | ok r => exact congrArg Except.ok (mirror_outcome .done r.1).symm
  | insertBefore x =>
      rw [stepThrough, stepThrough, hpool, Cursor.insertBefore_mirror c h]
      cases c.insertBefore s.pool x with
      | error e => rfl
      | ok q => rfl
  | cutBefore tail =>
      rw [stepThrough, stepThrough, hpool, Cursor.cutBefore_mirror c h]
      cases c.cutBefore s.pool tail with
      | error e => rfl
      | ok r => exact congrArg Except.ok (mirror_outcome .done r.1).symm
  | cutAfter tail =>
      rw [stepThrough, stepThrough, hpool, Cursor.cutAfter_mirror c h]
      cases c.cutAfter s.pool tail with
      | error e => rfl
      | ok r => exact congrArg Except.ok (mirror_outcome .done r.1).symm
  | _ => exact ht.elim

/-- **A step does in the mirror what the step of the same name does there**: it has the same answer
and leaves the state in the mirror, or ends in the same fault. -/
theorem mirror_step (h : s.pool.WellFormed) {t : Step α n m k} (ht : s.Walking t) :
    s.mirror.step t.mirror = Outcome.map mirror <$> s.step t := by
  cases t with
  | start slot d l =>
      have hstart : Cursor.start d.opposite s.mirror.pool l = (Cursor.start d s.pool l).flip :=
        Cursor.start_mirror s.pool l
      rw [Step.mirror, step, step, hstart]
      cases slot with
      | none => rfl
      | some slot => exact congrArg Except.ok (mirror_outcome .done s.pool).symm
  | through slot t =>
      simp only [Step.mirror, step, get_mirror]
      cases s.slots.get slot with
      | none => rfl
      | some c => exact mirror_stepThrough h ht
  | _ => exact ht.elim

end ListSession

/-- **Walking backward is walking forward in the mirror.**  All lists are linked along rows that have
no node in common, the cursors in the slots are of either direction and may be stale, and what is put
in is on no list.  Then the session in the mirror, with every cursor turned round, answers each step
as the session itself does, is after each step what the session has become, seen in the mirror, and
ends in a fault only where the session does, and in the same. -/
theorem walks_are_mirrored {s : ListSession α n m k} {steps : List (ListSession.Step α n m k)}
    (h : s.pool.WellFormed)
    (hrules : Session.KeepsTo ListSession.step ListSession.Walking s steps) :
    Session.run ListSession.step s.mirror (steps.map .mirror) =
      ((Session.run ListSession.step s steps).1.map (Outcome.map ListSession.mirror),
        ListSession.mirror <$> (Session.run ListSession.step s steps).2) := by
  induction steps generalizing s with
  | nil => rfl
  | cons t steps ih =>
      have hstep := ListSession.mirror_step h hrules.1
      cases ht : s.step t with
      | error e =>
          rw [ht] at hstep
          rw [List.map_cons, Session.run_cons_of_error _ hstep, Session.run_cons_of_error _ ht]
          rfl
      | ok o =>
          rw [ht] at hstep
          have ho : o.state.pool.WellFormed :=
            (ListSession.reaches_step hrules.1.tame ht).changes.wellFormed h
          have hstate : (Outcome.map ListSession.mirror o).state = o.state.mirror := rfl
          rw [List.map_cons, Session.run_cons_of_ok _ hstep, Session.run_cons_of_ok _ ht, hstate,
            ih ho (hrules.tail ht)]
          rfl

/-- Two backward cursors and a forward one work on two lists, until one of them is stale and ends the
session. -/
theorem walks_are_mirrored_stale_cursor :
    let pool : Pool Nat 6 3 :=
      ⟨#v[⟨⟨some 1, none⟩, 10⟩, ⟨⟨some 2, some 0⟩, 11⟩, ⟨⟨none, some 1⟩, 12⟩, ⟨⟨none, none⟩, 13⟩,
          ⟨⟨some 1, some 3⟩, 14⟩, ⟨⟨none, none⟩, 15⟩],
        #v[⟨some 0, some 2⟩, ⟨some 3, some 3⟩, ⟨none, none⟩]⟩
    let s : ListSession Nat 6 3 3 :=
      ⟨pool, #v[none, some ⟨.backward, 1, none⟩, some ⟨.forward, 0, some 1⟩]⟩
    let steps : List (ListSession.Step Nat 6 3 3) :=
      [.start (some 0) .backward 0, .through 0 .advance, .through 0 (.insertAfter 4),
        .through 0 (.cutAfter 2), .through 1 (.insertBefore 5), .through 2 .remove,
        .through 2 (.insertBefore 1), .through 0 .remove, .through 1 (.cutBefore 0),
        .through 2 .remove, .through 2 .advance]
    pool.WellFormed ∧ Session.KeepsTo ListSession.step ListSession.Walking s steps ∧
      Session.run ListSession.step s.mirror (steps.map .mirror) =
        ((Session.run ListSession.step s steps).1.map (Outcome.map ListSession.mirror),
          ListSession.mirror <$> (Session.run ListSession.step s steps).2) := by
  intro pool s steps
  have h : pool.WellFormed := by decide
  have hrules : Session.KeepsTo ListSession.step ListSession.Walking s steps := by decide +kernel
  exact ⟨h, hrules, walks_are_mirrored h hrules⟩

end SpanChain
