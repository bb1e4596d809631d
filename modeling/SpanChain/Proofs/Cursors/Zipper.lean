/-
**A cursor as a cut of its list.**

A forward cursor that stands on a member of its list cuts the list in two: the nodes that it has
passed, and those ahead of it, of which its own node is the first.  A finished cursor has passed them
all.  Whatever is done through the cursor is done at the cut, and the cursor goes with the cut: to the
tail of a split, and to the place where two lists have been joined.

Main definitions:

* `SpanChain.Zipper` — the rows of all lists, one of them with a cut;
* `SpanChain.Zipper.Move`, `SpanChain.Zipper.move`, `SpanChain.Zipper.answer` — what is done at the
  cut, and what is answered;
* `SpanChain.Zipper.Allowed` — the rules that the caller keeps to;
* `SpanChain.Zipper.Shows` — a session has the lists and the cursor of a zipper.

Main results:

* `SpanChain.Cursor.remove_of_cut`, `SpanChain.Cursor.insertAfter_of_cut`,
  `SpanChain.Cursor.insertBefore_of_cut`, `SpanChain.Cursor.cutInto_of_cut` — what a cursor does at
  a cut of its list;
* `SpanChain.Zipper.exists_shows` — every forward cursor on a member of its list is at a cut;
* `SpanChain.Zipper.step_follows` — a step through the cursor does what the move does;
* `SpanChain.cursor_session_follows_zipper` — **a session of such steps does so at every step**.
-/

import SpanChain.Proofs.Rows.Edit
import SpanChain.Session.Lists

set_option relaxedAutoImplicit false
set_option autoImplicit false

namespace SpanChain

variable {α : Type} {n m k : Nat}

/-! ### Operations at a cut -/

namespace Cursor

section AtCut

variable {p : Pool α n m} {t : Rows n m} {c : Cursor .forward n m} {u v : Row n} {x : Fin n}
  {tail : Fin m}

/-- What follows the node behind a cut. -/
theorem bind_follow_of_cut (h : p.Represents t) (hs : t c.list = u ++ v) (hc : c.node = v.head?) :
    c.node.bind (p.follow .forward) = (v.drop 1).head? := by
  rw [hc]
  cases v with
  | nil => rfl
  | cons y v => exact h.next_eq hs

/-- A cursor at a cut, if it stands on a node, comes behind this node. -/
theorem advance_of_cut (h : p.Represents t) (hs : t c.list = u ++ v) (hc : c.node = v.head?)
    (hv : v ≠ []) : c.advance p = .ok ⟨c.list, (v.drop 1).head?⟩ := by
  have hnext := bind_follow_of_cut h hs hc
  obtain ⟨y, b, rfl⟩ := List.exists_cons_of_ne_nil hv
  rw [hc, List.head?_cons] at hnext
  rw [advance, hc, List.head?_cons, ← hnext]
  rfl

/-- The node behind a cut, if there is one, is removed and has no links then. -/
theorem remove_of_cut (h : p.Represents t) (hs : t c.list = u ++ v) (hc : c.node = v.head?) :
    ∃ q, c.remove p = .ok (v.head?, q, ⟨c.list, (v.drop 1).head?⟩) ∧
      p.Becomes t q (t.set c.list (u ++ v.drop 1)) ∧
      ∀ y ∈ v.head?, q.next y = none ∧ q.prev y = none := by
  obtain ⟨l, node⟩ := c
  subst hc
  cases v with
  | nil =>
      refine ⟨p, rfl, ?_, by simp⟩
      rw [List.drop_nil, ← hs, Rows.set_eq_self]
      exact h.becomes_refl
  | cons y v =>
      obtain ⟨q, hq, hb, hlinks⟩ := h.remove hs
      refine ⟨q, ?_, hb, ?_⟩
      · simp only [remove, List.head?_cons, Pool.follow_forward, h.next_eq hs, hq]
        rfl
      · rintro z ⟨⟩
        exact hlinks

/-- A node comes behind the node that is behind a cut. -/
theorem insertAfter_of_cut {y : Fin n} (h : p.Represents t) (hs : t c.list = u ++ y :: v)
    (hc : c.node = some y) (hx : t.Unlisted x) :
    ∃ q, c.insertAfter p x = .ok (q, ⟨c.list, some x⟩) ∧
      p.Becomes t q (t.set c.list (u ++ [y] ++ x :: v)) := by
  obtain ⟨q, hq, hb⟩ := h.insertAfter (hs.trans (List.append_cons ..)) hx
  rw [List.getLast?_concat] at hq
  refine ⟨q, ?_, hb⟩
  rw [insertAfter, hc]
  simp only [Pool.insertBeyond_forward, hq]
  rfl

/-- Behind the gap comes the first node. -/
theorem insertAfter_of_gap (h : p.Represents t) (hc : c.node = none) (hx : t.Unlisted x) :
    ∃ q, c.insertAfter p x = .ok (q, ⟨c.list, some x⟩) ∧
      p.Becomes t q (t.set c.list (x :: t c.list)) := by
  obtain ⟨q, hq, hb⟩ := h.insertAfter (u := []) rfl hx
  rw [List.getLast?_nil] at hq
  refine ⟨q, ?_, hb⟩
  rw [insertAfter, hc]
  simp only [Pool.insertBeyond_forward, hq]
  rfl

/-- A node comes in front of a cut. -/
theorem insertBefore_of_cut (h : p.Represents t) (hs : t c.list = u ++ v) (hc : c.node = v.head?)
    (hx : t.Unlisted x) :
    ∃ q, c.insertBefore p x = .ok q ∧ p.Becomes t q (t.set c.list (u ++ [x] ++ v)) := by
  rw [← List.append_cons, insertBefore, hc]
  exact h.insertBefore hs hx

/-- What is behind a cut of a list goes to another list.  Where no node is behind the cut, the other
list drops its nodes all the same. -/
theorem cutInto_of_cut (h : p.Represents t) (hs : t c.list = u ++ v) (htail : c.list ≠ tail) :
    ∃ q, c.cutInto p tail v.head? = .ok (q, ⟨tail, v.head?⟩) ∧
      p.Becomes t q ((t.set c.list u).set tail v) := by
  rw [cutInto, if_neg htail]
  cases v with
  | nil =>
      have hu : t.set c.list u = t := by rw [← List.append_nil u, ← hs, Rows.set_eq_self]
      rw [hu]
      exact ⟨_, rfl, h.clear tail⟩
  | cons x v =>
      obtain ⟨q, hq, hb⟩ := h.cutBefore hs htail
      refine ⟨q, ?_, hb⟩
      simp only [List.head?_cons, Pool.cutFrom_forward, hq]
      rfl

end AtCut

end Cursor

/-! ### Zippers -/

/-- The rows of all lists, with a cut in the row of one of them. -/
structure Zipper (n m : Nat) where
  /-- The list that is cut. -/
  list : Fin m
  /-- The nodes of this list in front of the cut. -/
  passed : Row n
  /-- The nodes of this list behind the cut, the one that the cursor stands on first. -/
  ahead : Row n
  /-- The nodes of the other lists.  What it says of the list that is cut does not count. -/
  others : Rows n m

namespace Zipper

/-- The nodes of all lists. -/
def rows (z : Zipper n m) : Rows n m := z.others.set z.list (z.passed ++ z.ahead)

/-- The cursor at the cut. -/
def cursor (z : Zipper n m) : Cursor .forward n m := ⟨z.list, z.ahead.head?⟩

/-- Something to be done at the cut. -/
inductive Move (n m : Nat) where
  | advance
  | remove
  /-- A node comes behind the cursor, which moves onto it. -/
  | insertAfter (x : Fin n)
  /-- A node comes in front of the cursor. -/
  | insertBefore (x : Fin n)
  /-- The node of the cursor and all behind it go to another list. -/
  | cutBefore (tail : Fin m)
  /-- All nodes behind that of the cursor go to another list. -/
  | cutAfter (tail : Fin m)
  /-- A list goes to the back of another, and the cut comes to where the two meet. -/
  | appendAtSeam (l tail : Fin m)
  deriving DecidableEq

/-- The step of a session that makes the move through the cursor in a slot. -/
def Move.step (slot : Fin k) : Move n m → ListSession.Step α n m k
  | .advance => .through slot .advance
  | .remove => .through slot .remove
  | .insertAfter x => .through slot (.insertAfter x)
  | .insertBefore x => .through slot (.insertBefore x)
  | .cutBefore tail => .through slot (.cutBefore tail)
  | .cutAfter tail => .through slot (.cutAfter tail)
  | .appendAtSeam l tail => .appendAtSeam l tail (some slot)

/-- What comes of the zipper.  Behind a finished cursor comes the first node of the list, so a node
that is put there comes in front of all others. -/
def move (z : Zipper n m) : Move n m → Zipper n m
  | .advance => { z with passed := z.passed ++ z.ahead.take 1, ahead := z.ahead.drop 1 }
  | .remove => { z with ahead := z.ahead.drop 1 }
  | .insertAfter x =>
    match z.ahead with
    | y :: b => { z with passed := z.passed ++ [y], ahead := x :: b }
    | [] => { z with passed := [], ahead := x :: z.passed }
  | .insertBefore x => { z with passed := z.passed ++ [x] }
  | .cutBefore tail => ⟨tail, [], z.ahead, z.others.set z.list z.passed⟩
  | .cutAfter tail => ⟨tail, [], z.ahead.drop 1, z.others.set z.list (z.passed ++ z.ahead.take 1)⟩
  | .appendAtSeam l tail => ⟨l, z.rows l, z.rows tail, z.rows.set tail []⟩

/-- What is answered: the node that was removed, if any. -/
def answer (z : Zipper n m) : Move n m → Reply α n
  | .remove => .node z.ahead.head?
  | _ => .done

/-- The rules: only a cursor on a node is advanced, what is put in is on no list, and two lists are
different. -/
def Allowed (z : Zipper n m) : Move n m → Prop
  | .advance => z.ahead ≠ []
  | .remove => True
  | .insertAfter x | .insertBefore x => z.rows.Unlisted x
  | .cutBefore tail | .cutAfter tail => z.list ≠ tail
  | .appendAtSeam l tail => l ≠ tail

instance (z : Zipper n m) : DecidablePred z.Allowed
  | .advance => inferInstanceAs (Decidable (z.ahead ≠ []))
  | .remove => inferInstanceAs (Decidable True)
  | .insertAfter x | .insertBefore x => inferInstanceAs (Decidable (z.rows.Unlisted x))
  | .cutBefore tail | .cutAfter tail => inferInstanceAs (Decidable (z.list ≠ tail))
  | .appendAtSeam l tail => inferInstanceAs (Decidable (l ≠ tail))

/-- The rules for a row of moves. -/
def AllAllowed : Zipper n m → List (Move n m) → Prop
  | _, [] => True
  | z, v :: moves => z.Allowed v ∧ AllAllowed (z.move v) moves

instance decidableAllAllowed : (z : Zipper n m) → (moves : List (Move n m)) →
    Decidable (AllAllowed z moves)
  | _, [] => inferInstanceAs (Decidable True)
  | z, v :: moves =>
    have := decidableAllAllowed (z.move v) moves
    inferInstanceAs (Decidable (z.Allowed v ∧ AllAllowed (z.move v) moves))

/-! ### Rows of a zipper -/

section Lemmas

variable (z : Zipper n m) {tail : Fin m} {x : Fin n}

@[simp] theorem rows_list : z.rows z.list = z.passed ++ z.ahead := Rows.set_self ..

/-- The rows with the row that is cut replaced. -/
theorem set_rows (u : Row n) : z.rows.set z.list u = z.others.set z.list u := Rows.set_set ..

theorem rows_move_advance : (z.move .advance).rows = z.rows := by
  simp only [move, rows, List.append_assoc, List.take_append_drop]

theorem rows_move_remove :
    (z.move .remove).rows = z.rows.set z.list (z.passed ++ z.ahead.drop 1) := (z.set_rows _).symm

theorem rows_move_insertAfter {y : Fin n} {b : Row n} (h : z.ahead = y :: b) :
    (z.move (.insertAfter x)).rows = z.rows.set z.list (z.passed ++ [y] ++ x :: b) := by
  rw [set_rows, move, h]
  rfl

theorem rows_move_insertAfter_of_finished (h : z.ahead = []) :
    (z.move (.insertAfter x)).rows = z.rows.set z.list (x :: z.rows z.list) := by
  rw [set_rows, rows_list, move, h, List.append_nil]
  rfl

/-- A cursor that puts a node behind itself is on this node then, finished or not. -/
theorem cursor_move_insertAfter : (z.move (.insertAfter x)).cursor = ⟨z.list, some x⟩ := by
  cases h : z.ahead <;> rw [move, h] <;> rfl

theorem rows_move_insertBefore :
    (z.move (.insertBefore x)).rows = z.rows.set z.list (z.passed ++ [x] ++ z.ahead) :=
  (z.set_rows _).symm

theorem rows_move_cutBefore :
    (z.move (.cutBefore tail)).rows = (z.rows.set z.list z.passed).set tail z.ahead := by
  rw [set_rows]
  rfl

theorem rows_move_cutAfter :
    (z.move (.cutAfter tail)).rows =
      (z.rows.set z.list (z.passed ++ z.ahead.take 1)).set tail (z.ahead.drop 1) := by
  rw [set_rows]
  rfl

theorem rows_move_appendAtSeam {l : Fin m} (hl : l ≠ tail) :
    (z.move (.appendAtSeam l tail)).rows =
      (z.rows.set l (z.rows l ++ z.rows tail)).set tail [] :=
  Rows.set_comm hl.symm ..

end Lemmas

/-! ### One step -/

/-- The pool stands for the rows of the zipper, and the cursor in the slot is the one at the cut. -/
structure Shows (z : Zipper n m) (s : ListSession α n m k) (slot : Fin k) : Prop where
  represents : s.pool.Represents z.rows
  cursor : s.slots.get slot = some ⟨.forward, z.cursor⟩

/-- **Every forward cursor that has finished or stands on a member of its list is at a cut.** -/
theorem exists_shows {s : ListSession α n m k} {slot : Fin k} {c : Cursor .forward n m}
    (h : s.pool.WellFormed) (hslot : s.slots.get slot = some ⟨.forward, c⟩)
    (hc : ∀ x ∈ c.node, x ∈ s.pool.members c.list) : ∃ z : Zipper n m, z.Shows s slot := by
  obtain ⟨l, node⟩ := c
  cases node with
  | none =>
      refine ⟨⟨l, s.pool.members l, [], s.pool.members⟩, ?_, hslot⟩
      rw [rows, List.append_nil, Rows.set_eq_self]
      exact h
  | some x =>
      obtain ⟨u, v, huv, -⟩ := Row.exists_eq_append_cons (hc x rfl)
      refine ⟨⟨l, u, x :: v, s.pool.members⟩, ?_, hslot⟩
      rw [rows, ← huv, Rows.set_eq_self]
      exact h

/-- The outcome of a step in the state `s`, beside a move of a zipper. -/
structure Follows (slot : Fin k) (s : ListSession α n m k) (z : Zipper n m) (v : Move n m)
    (o : Outcome α n (ListSession α n m k)) : Prop where
  /-- The answer is that of the move. -/
  reply : o.reply = z.answer v
  /-- The lists have become those of the moved zipper, and nothing else in the pool has changed. -/
  becomes : s.pool.Becomes z.rows o.state.pool (z.move v).rows
  /-- The cursor is the one at the cut of the moved zipper. -/
  cursor : o.state.slots.get slot = some ⟨.forward, (z.move v).cursor⟩
  /-- All other cursors are as they were. -/
  slots : ∀ i, i ≠ slot → o.state.slots.get i = s.slots.get i
  /-- A node that is handed back has no links. -/
  unlinked : ∀ x, (z.answer v : Reply α n) = .node (some x) →
    o.state.pool.next x = none ∧ o.state.pool.prev x = none

variable {s : ListSession α n m k} {slot : Fin k} {z : Zipper n m} {v : Move n m}
  {q : Pool α n m}

theorem Follows.shows {o : Outcome α n (ListSession α n m k)} (h : Follows slot s z v o) :
    (z.move v).Shows o.state slot :=
  ⟨h.becomes.represents, h.cursor⟩

/-- A pool and a cursor that are put into the state. -/
theorem follows_put (hb : s.pool.Becomes z.rows q (z.move v).rows)
    (hunlinked : ∀ x, (z.answer v : Reply α n) = .node (some x) →
      q.next x = none ∧ q.prev x = none) :
    Follows slot s z v (((s.setPool q).put slot (z.move v).cursor).answer (z.answer v)) where
  reply := rfl
  becomes := hb
  cursor := Vector.getElem_set_self slot.isLt
  slots i hi := Vector.getElem_set_ne slot.isLt i.isLt fun e => hi (Fin.ext e.symm)
  unlinked := hunlinked

/-- **A step through the cursor does what the move does at the cut.** -/
theorem step_follows (h : z.Shows s slot) (hv : z.Allowed v) :
    ∃ o, s.step (v.step slot) = .ok o ∧ Follows slot s z v o := by
  have hthrough : ∀ t, s.step (.through slot t) = s.stepThrough slot z.cursor t := fun t => by
    rw [ListSession.step, h.cursor]
  have hrep := h.represents
  have hrow : z.rows z.cursor.list = z.passed ++ z.ahead := z.rows_list
  have hnode : z.cursor.node = z.ahead.head? := rfl
  cases v with
  | advance =>
      refine ⟨_, ?_, follows_put (q := s.pool) ?_ (by simp [answer])⟩
      · rw [Move.step, hthrough, ListSession.stepThrough, Cursor.advance_of_cut hrep hrow hnode hv]
        rfl
      · rw [rows_move_advance]
        exact hrep.becomes_refl
  | remove =>
      obtain ⟨q, hq, hb, hlinks⟩ := Cursor.remove_of_cut hrep hrow hnode
      refine ⟨_, ?_, follows_put (q := q) ?_ ?_⟩
      · rw [Move.step, hthrough, ListSession.stepThrough, hq]
        rfl
      · rw [rows_move_remove]
        exact hb
      · intro x hx
        exact hlinks x (Reply.node.inj hx)
  | insertAfter x =>
      cases hahead : z.ahead with
      | nil =>
          rw [hahead] at hnode
          obtain ⟨q, hq, hb⟩ := Cursor.insertAfter_of_gap hrep hnode hv
          refine ⟨_, ?_, follows_put (q := q) ?_ (by simp [answer])⟩
          · rw [Move.step, hthrough, ListSession.stepThrough, hq, z.cursor_move_insertAfter]
            rfl
          · rw [z.rows_move_insertAfter_of_finished hahead]
            exact hb
      | cons y b =>
          rw [hahead] at hrow hnode
          obtain ⟨q, hq, hb⟩ := Cursor.insertAfter_of_cut hrep hrow hnode hv
          refine ⟨_, ?_, follows_put (q := q) ?_ (by simp [answer])⟩
          · rw [Move.step, hthrough, ListSession.stepThrough, hq, z.cursor_move_insertAfter]
            rfl
          · rw [z.rows_move_insertAfter hahead]
            exact hb
  | insertBefore x =>
      obtain ⟨q, hq, hb⟩ := Cursor.insertBefore_of_cut hrep hrow hnode hv
      refine ⟨s.withPool (.done, q), ?_, rfl, ?_, h.cursor, fun _ _ => rfl, by simp [answer]⟩
      · rw [Move.step, hthrough, ListSession.stepThrough, hq]
        rfl
      · rw [rows_move_insertBefore]
        exact hb
  | cutBefore tail =>
      obtain ⟨q, hq, hb⟩ := Cursor.cutInto_of_cut hrep hrow hv
      refine ⟨_, ?_, follows_put (q := q) ?_ (by simp [answer])⟩
      · rw [Move.step, hthrough, ListSession.stepThrough, Cursor.cutBefore, hnode, hq]
        rfl
      · rw [rows_move_cutBefore]
        exact hb
  | cutAfter tail =>
      have hbehind : z.rows z.cursor.list = (z.passed ++ z.ahead.take 1) ++ z.ahead.drop 1 := by
        rw [hrow, List.append_assoc, List.take_append_drop]
      obtain ⟨q, hq, hb⟩ := Cursor.cutInto_of_cut hrep hbehind hv
      refine ⟨_, ?_, follows_put (q := q) ?_ (by simp [answer])⟩
      · rw [Move.step, hthrough, ListSession.stepThrough, Cursor.cutAfter,
          Cursor.bind_follow_of_cut hrep hrow hnode, hq]
        rfl
      · rw [rows_move_cutAfter]
        exact hb
  | appendAtSeam l tail =>
      refine ⟨_, ?_, follows_put (q := s.pool.append l tail) ?_ (by simp [answer])⟩
      · rw [Move.step, ListSession.step, if_neg hv]
        simp only [h.cursor, Cursor.appendAtSeam, hrep.first_eq tail]
        rfl
      · rw [z.rows_move_appendAtSeam hv]
        exact hrep.append hv

/-! ### A session -/

/-- Every outcome follows its move. -/
def AllFollow (slot : Fin k) : ListSession α n m k → Zipper n m → List (Move n m) →
    List (Outcome α n (ListSession α n m k)) → Prop
  | _, _, [], [] => True
  | s, z, v :: moves, o :: outcomes =>
    Follows slot s z v o ∧ AllFollow slot o.state (z.move v) moves outcomes
  | _, _, _, _ => False

end Zipper

/-- **A cursor is a zipper over its list.**  All lists are linked along rows that have no node in
common; the cursor stands on a node of its list or has finished.  No move that keeps to the rules
fails, and each is answered and changes the lists and the cursor as it does the zipper.  Nodes on no
list keep the links that they have, and all other cursors stay. -/
theorem cursor_session_follows_zipper {s : ListSession α n m k} {slot : Fin k} {z : Zipper n m}
    {moves : List (Zipper.Move n m)} (h : z.Shows s slot) (hmoves : z.AllAllowed moves) :
    ∃ outcomes final,
      Session.run ListSession.step s (moves.map (Zipper.Move.step slot)) = (outcomes, .ok final) ∧
      Zipper.AllFollow slot s z moves outcomes := by
  induction moves generalizing s z with
  | nil => exact ⟨[], s, rfl, trivial⟩
  | cons v moves ih =>
      obtain ⟨o, ho, hfollows⟩ := Zipper.step_follows h hmoves.1
      obtain ⟨outcomes, final, hrun, hall⟩ := ih hfollows.shows hmoves.2
      refine ⟨o :: outcomes, final, ?_, hfollows, hall⟩
      rw [List.map_cons, Session.run_cons_of_ok _ ho, hrun]

/-- A cursor puts in a node with links left over from another list, goes with the tail of a split,
removes and puts in nodes there, finishes, and comes to a seam. -/
theorem cursor_session_follows_zipper_rebound :
    let pool : Pool Nat 6 3 :=
      ⟨#v[⟨⟨some 1, none⟩, 10⟩, ⟨⟨some 2, some 0⟩, 11⟩, ⟨⟨none, some 1⟩, 12⟩, ⟨⟨none, none⟩, 13⟩,
          ⟨⟨some 1, some 3⟩, 14⟩, ⟨⟨none, none⟩, 15⟩],
        #v[⟨some 0, some 2⟩, ⟨some 3, some 3⟩, ⟨none, none⟩]⟩
    let s : ListSession Nat 6 3 2 :=
      ⟨pool, #v[some ⟨.backward, 1, some 3⟩, some ⟨.forward, 0, some 1⟩]⟩
    let z : Zipper 6 3 := ⟨0, [0], [1, 2], fun l => if l = 1 then [3] else []⟩
    let moves : List (Zipper.Move 6 3) :=
      [.insertAfter 4, .cutBefore 2, .remove, .insertBefore 5, .insertAfter 4, .advance, .remove,
        .cutAfter 1, .insertBefore 3, .appendAtSeam 0 2, .remove, .cutAfter 1, .advance,
        .insertAfter 5, .appendAtSeam 1 2]
    z.Shows s 1 ∧ z.AllAllowed moves ∧
      ∃ outcomes final,
        Session.run ListSession.step s (moves.map (Zipper.Move.step 1)) = (outcomes, .ok final) ∧
        Zipper.AllFollow 1 s z moves outcomes :=
  ⟨⟨by decide, rfl⟩, by decide, cursor_session_follows_zipper ⟨by decide, rfl⟩ (by decide)⟩

end SpanChain
