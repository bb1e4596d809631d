/-
**Sessions of edits, seen on rows.**

An edit of lists has a counterpart on rows: what comes of the rows, and what is answered.  As long as
the caller keeps to the rules, a session of edits answers as its counterpart does and is at every
moment a pool that stands for the rows of the counterpart.

Main definitions:

* `SpanChain.ListEdit.Allowed` — the rules that the caller keeps to;
* `SpanChain.ListEdit.onRows`, `SpanChain.ListEdit.answer` — the counterpart of an edit;
* `SpanChain.ListEdit.AllAllowed`, `SpanChain.ListEdit.trace` — the same for a row of edits.

Main results:

* `SpanChain.ListEdit.apply_refines` — one edit does to the pool what its counterpart does to the
  rows;
* `SpanChain.session_refines_rows` — **a session does so at every step**.
-/

import SpanChain.Proofs.Rows.Edit
import SpanChain.Session.Lists

set_option relaxedAutoImplicit false
set_option autoImplicit false

namespace SpanChain

variable {α : Type} {n m k : Nat}

namespace ListEdit

/-! ### The counterpart of an edit -/

/-- The rules of an edit: an inserted node is on no list; an anchor, and a node that is removed or
cut at, is on the list that is named; two lists are different. -/
def Allowed (s : Rows n m) : ListEdit n m → Prop
  | .clear _ | .popFront _ | .popBack _ | .tryRemove _ _ => True
  | .pushFront _ x | .pushBack _ x => s.Unlisted x
  | .insertAfter l anchor x | .insertBefore l anchor x =>
    (∀ y ∈ anchor, y ∈ s l) ∧ s.Unlisted x
  | .remove l x => x ∈ s l
  | .swap l k | .append l k => l ≠ k
  | .cutBefore l x k | .cutThrough l x k => l ≠ k ∧ x ∈ s l
  | .shareEnds _ _ | .unlink _ => False

instance (s : Rows n m) : DecidablePred (Allowed s)
  | .clear _ | .popFront _ | .popBack _ | .tryRemove _ _ => inferInstanceAs (Decidable True)
  | .pushFront _ x | .pushBack _ x => inferInstanceAs (Decidable (s.Unlisted x))
  | .insertAfter l anchor x | .insertBefore l anchor x =>
    inferInstanceAs (Decidable ((∀ y ∈ anchor, y ∈ s l) ∧ s.Unlisted x))
  | .remove l x => inferInstanceAs (Decidable (x ∈ s l))
  | .swap l k | .append l k => inferInstanceAs (Decidable (l ≠ k))
  | .cutBefore l x k | .cutThrough l x k => inferInstanceAs (Decidable (l ≠ k ∧ x ∈ s l))
  | .shareEnds _ _ | .unlink _ => inferInstanceAs (Decidable False)

/-- What comes of the rows. -/
def onRows (s : Rows n m) : ListEdit n m → Rows n m
  | .clear l => s.set l []
  | .pushFront l x => s.set l (x :: s l)
  | .pushBack l x => s.set l (s l ++ [x])
  | .insertAfter l anchor x => s.set l (Row.insertAfter (s l) anchor x)
  | .insertBefore l anchor x => s.set l (Row.insertBefore (s l) anchor x)
  | .popFront l => s.set l (s l).tail
  | .popBack l => s.set l (s l).dropLast
  | .remove l x | .tryRemove l x => s.set l ((s l).erase x)
  | .swap l k => (s.set l (s k)).set k (s l)
  | .append l k => (s.set l (s l ++ s k)).set k []
  | .cutBefore l x k => (s.set l (Row.front x (s l))).set k (Row.back x (s l))
  | .cutThrough l x k => (s.set l (Row.back x (s l)).tail).set k (Row.front x (s l) ++ [x])
  | .shareEnds _ _ | .unlink _ => s

/-- What is answered: the node that was removed, if any. -/
def answer (s : Rows n m) : ListEdit n m → Reply α n
  | .popFront l => .node (s l).head?
  | .popBack l => .node (s l).getLast?
  | .remove _ x => .node (some x)
  | .tryRemove l x => if (s l).contains x then .node (some x) else .refused .notAMember
  | _ => .done

/-- The rules for a row of edits. -/
def AllAllowed : Rows n m → List (ListEdit n m) → Prop
  | _, [] => True
  | s, e :: edits => e.Allowed s ∧ AllAllowed (e.onRows s) edits

instance decidableAllAllowed : (s : Rows n m) → (edits : List (ListEdit n m)) →
    Decidable (AllAllowed s edits)
  | _, [] => inferInstanceAs (Decidable True)
  | s, e :: edits =>
    have := decidableAllAllowed (e.onRows s) edits
    inferInstanceAs (Decidable (e.Allowed s ∧ AllAllowed (e.onRows s) edits))

/-- The answers to a row of edits, each with the rows after it. -/
def trace (α : Type) : Rows n m → List (ListEdit n m) → List (Reply α n × Rows n m)
  | _, [] => []
  | s, e :: edits => (e.answer s, e.onRows s) :: trace α (e.onRows s) edits

/-! ### One edit -/

variable {p : Pool α n m} {s : Rows n m} {e : ListEdit n m}

theorem Allowed.isSound (h : e.Allowed s) : e.isSound = true := by
  cases e with
  | swap l k => exact decide_eq_true h
  | append l k => exact decide_eq_true h
  | cutBefore l x k => exact decide_eq_true h.1
  | cutThrough l x k => exact decide_eq_true h.1
  | shareEnds l k => exact h.elim
  | _ => rfl

/-- The pool after an edit, beside the counterpart of the edit. -/
structure Refines (p : Pool α n m) (s : Rows n m) (e : ListEdit n m) (q : Pool α n m) : Prop where
  /-- The rows have become those of the counterpart. -/
  becomes : p.Becomes s q (e.onRows s)
  /-- A node that is handed back has no links. -/
  unlinked : ∀ x, (e.answer s : Reply α n) = .node (some x) → q.next x = none ∧ q.prev x = none

/-- **An edit does to the pool what its counterpart does to the rows**, and answers like it. -/
theorem apply_refines (h : p.Represents s) (he : e.Allowed s) :
    ∃ q, e.apply p = .ok (e.answer s, q) ∧ Refines p s e q := by
  rw [apply, if_pos he.isSound]
  cases e with
  | clear l => exact ⟨_, rfl, h.clear l, by simp [answer]⟩
  | pushFront l x =>
      obtain ⟨q, hq, hb⟩ := h.insertAfter_position (l := l) (a := none) (by simp) he
      exact ⟨q, by rw [effect, Pool.pushFront, hq]; rfl, hb, by simp [answer]⟩
  | pushBack l x =>
      obtain ⟨q, hq, hb⟩ := h.insertBefore_position (l := l) (a := none) (by simp) he
      exact ⟨q, by rw [effect, Pool.pushBack, hq]; rfl, hb, by simp [answer]⟩
  | insertAfter l anchor x =>
      obtain ⟨q, hq, hb⟩ := h.insertAfter_position he.1 he.2
      exact ⟨q, by rw [effect, hq]; rfl, hb, by simp [answer]⟩
  | insertBefore l anchor x =>
      obtain ⟨q, hq, hb⟩ := h.insertBefore_position he.1 he.2
      exact ⟨q, by rw [effect, hq]; rfl, hb, by simp [answer]⟩
  | popFront l =>
      obtain ⟨q, hq, hb, hlinks⟩ := h.popFront l
      refine ⟨q, by rw [effect, hq]; rfl, hb, ?_⟩
      intro x hx
      exact hlinks x (Reply.node.inj hx)
  | popBack l =>
      obtain ⟨q, hq, hb, hlinks⟩ := h.popBack l
      refine ⟨q, by rw [effect, hq]; rfl, hb, ?_⟩
      intro x hx
      exact hlinks x (Reply.node.inj hx)
  | remove l x =>
      obtain ⟨q, hq, hb, hlinks⟩ := h.remove_member he
      refine ⟨q, by rw [effect, hq]; rfl, hb, ?_⟩
      rintro y ⟨⟩
      exact hlinks
  | tryRemove l x =>
      by_cases hx : x ∈ s l
      · have hs : (s l).contains x = true := List.contains_iff_mem.2 hx
        obtain ⟨q, hq, hb, hlinks⟩ := h.remove_member hx
        refine ⟨q, ?_, hb, ?_⟩
        · rw [effect, Pool.remove?, if_pos (h.contains_iff.2 hx), hq, answer, if_pos hs]
          rfl
        · rw [answer, if_pos hs]
          rintro y ⟨⟩
          exact hlinks
      · have hs : ¬ (s l).contains x = true := fun hc => hx (List.contains_iff_mem.1 hc)
        refine ⟨p, ?_, ?_, ?_⟩
        · rw [effect, Pool.remove?, if_neg fun hc => hx (h.contains_iff.1 hc), answer, if_neg hs]
          rfl
        · rw [onRows, List.erase_of_not_mem hx, Rows.set_eq_self]
          exact h.becomes_refl
        · simp [answer, hx]
  | swap l k => exact ⟨_, rfl, h.swap l k, by simp [answer]⟩
  | append l k => exact ⟨_, rfl, h.append he, by simp [answer]⟩
  | cutBefore l x k =>
      obtain ⟨q, hq, hb⟩ := h.cutBefore_member he.2 he.1
      exact ⟨q, by rw [effect, hq]; rfl, hb, by simp [answer]⟩
  | cutThrough l x k =>
      obtain ⟨q, hq, hb⟩ := h.cutThrough_member he.2 he.1
      exact ⟨q, by rw [effect, hq]; rfl, hb, by simp [answer]⟩
  | shareEnds l k => exact he.elim
  | unlink x => exact he.elim

/-! ### A session of edits -/

variable {session : ListSession α n m k} {edits : List (ListEdit n m)}

/-- An outcome of a session that began with the pool `p`, beside an answer and the rows after it. -/
structure Follows (p : Pool α n m) (o : Outcome α n (ListSession α n m k))
    (r : Reply α n × Rows n m) : Prop where
  /-- The answers are the same. -/
  reply : o.reply = r.1
  /-- The pool stands for the rows. -/
  represents : o.state.pool.Represents r.2
  /-- The nodes carry what they carried. -/
  data : ∀ x, o.state.pool.data x = p.data x
  /-- A node that is handed back has no links. -/
  unlinked : ∀ x, r.1 = .node (some x) → o.state.pool.next x = none ∧ o.state.pool.prev x = none

/-- **A session of edits does to the pool what the counterparts do to the rows**, whatever rows it
begins with. -/
theorem run_refines {s : Rows n m} (h : session.pool.Represents s) (hedits : AllAllowed s edits) :
    ∃ outcomes final,
      Session.run ListSession.step session (edits.map .edit) = (outcomes, .ok final) ∧
      List.Forall₂ (Follows session.pool) outcomes (trace α s edits) := by
  induction edits generalizing session s with
  | nil => exact ⟨[], session, rfl, .nil⟩
  | cons e edits ih =>
      obtain ⟨q, hq, href⟩ := apply_refines h hedits.1
      have hstep : session.step (.edit e) = .ok (session.withPool (e.answer s, q)) := by
        rw [ListSession.step, hq]
        rfl
      have hrep : (session.setPool q).pool.Represents (e.onRows s) := href.becomes.represents
      obtain ⟨outcomes, final, hrun, hall⟩ := ih hrep hedits.2
      refine ⟨session.withPool (e.answer s, q) :: outcomes, final, ?_, .cons ?_ (hall.imp ?_)⟩
      · have hstate : (session.withPool (e.answer s, q)).state = session.setPool q := rfl
        rw [List.map_cons, Session.run_cons_of_ok _ hstep, hstate, hrun]
      · exact ⟨rfl, href.becomes.represents, href.becomes.data, href.unlinked⟩
      · intro o r hor
        exact { hor with data := fun x => (hor.data x).trans (href.becomes.data x) }

end ListEdit

/-- **A session of edits that begins with empty lists refines its counterpart on rows.**  The nodes
may have any links at the start.  No edit fails; every answer is that of the counterpart, and after
every edit each list is linked along its row, with no node twice. -/
theorem session_refines_rows {session : ListSession α n m k} {edits : List (ListEdit n m)}
    (hempty : ∀ l, session.pool.first l = none ∧ session.pool.last l = none)
    (hedits : ListEdit.AllAllowed (fun _ => []) edits) :
    ∃ outcomes final,
      Session.run ListSession.step session (edits.map .edit) = (outcomes, .ok final) ∧
      List.Forall₂ (ListEdit.Follows session.pool) outcomes
        (ListEdit.trace α (fun _ => []) edits) :=
  ListEdit.run_refines (Pool.represents_of_empty hempty) hedits

/-- A node is dropped with its list and put, with the links that it still has, on another list. -/
theorem session_refines_rows_dropped_node :
    let session : ListSession Nat 4 2 0 := .new #v[10, 11, 12, 13] 2 0
    let edits : List (ListEdit 4 2) :=
      [.pushBack 0 0, .pushBack 0 1, .insertAfter 0 (some 1) 2, .cutBefore 0 1 1, .pushBack 1 3,
        .clear 1, .insertBefore 0 (some 0) 2, .append 1 0, .popFront 1, .tryRemove 1 3,
        .cutThrough 1 0 0, .swap 0 1]
    (∀ l, session.pool.first l = none ∧ session.pool.last l = none) ∧
      ListEdit.AllAllowed (fun _ => []) edits ∧
      ∃ outcomes final,
        Session.run ListSession.step session (edits.map .edit) = (outcomes, .ok final) ∧
        List.Forall₂ (ListEdit.Follows session.pool) outcomes
          (ListEdit.trace Nat (fun _ => []) edits) :=
  ⟨by decide, by decide, session_refines_rows (by decide) (by decide)⟩

end SpanChain
