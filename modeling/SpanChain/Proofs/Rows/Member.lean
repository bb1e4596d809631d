/-
**What the check of membership lets pass.**

Before an operation writes to the links of a node that it was given, it looks for the node on the list
it is used with: by a walk from the first node on, that stops at the node or where the walk ends.  The
walk sees the nodes of this list only.  So the check lets the members pass and nothing else; a node that
is on another list, or was taken off, or was dropped with links that still lead to the list, is refused
all the same.

Main definitions:

* `SpanChain.Walk.Search` — a search by a walk, that ends with an answer;
* `SpanChain.Guarded` — an operation that returns, or stops at the check of membership.

Main results:

* `SpanChain.Walk.Search.unique`, `SpanChain.Pool.Linked.search` — a search over a linked row ends, and
  finds the nodes of the row;
* `SpanChain.Pool.Represents.guarded_remove` and its like — what each operation lets pass;
* `SpanChain.membership_guards_are_exact` — **all of this in a session**.
-/

import SpanChain.Proofs.Rows.Edit
import SpanChain.Session.Lists

set_option relaxedAutoImplicit false
set_option autoImplicit false

namespace SpanChain

variable {α β : Type} {n m k : Nat}

/-! ### The search -/

/-- A search for a node by a walk ends with the given answer: it takes one node after the other from
the front, until it has taken the one it looks for or there is none left. -/
inductive Walk.Search (p : Pool α n m) (x : Fin n) : Walk n → Bool → Prop where
  | exhausted {w w' : Walk n} (h : w.next p = (none, w')) : Search p x w false
  | hit {w w' : Walk n} (h : w.next p = (some x, w')) : Search p x w true
  | miss {w w' : Walk n} {y : Fin n} {b : Bool} (h : w.next p = (some y, w')) (hy : y ≠ x)
      (hrest : Search p x w' b) : Search p x w b

/-- A search ends with one answer only. -/
theorem Walk.Search.unique {p : Pool α n m} {x : Fin n} {w : Walk n} {b b' : Bool}
    (h : w.Search p x b) (h' : w.Search p x b') : b = b' := by
  induction h with
  | exhausted h =>
      cases h' with
      | exhausted _ => rfl
      | hit h₂ => exact absurd (h.symm.trans h₂) (by simp)
      | miss h₂ _ _ => exact absurd (h.symm.trans h₂) (by simp)
  | hit h =>
      cases h' with
      | exhausted h₂ => exact absurd (h.symm.trans h₂) (by simp)
      | hit _ => rfl
      | miss h₂ hy _ => exact absurd (Option.some.inj (Prod.mk.inj (h.symm.trans h₂)).1).symm hy
  | miss h hy _ ih =>
      cases h' with
      | exhausted h₂ => exact absurd (h.symm.trans h₂) (by simp)
      | hit h₂ => exact absurd (Option.some.inj (Prod.mk.inj (h.symm.trans h₂)).1) hy
      | miss h₂ _ hrest₂ =>
          obtain ⟨-, rfl⟩ := Prod.mk.inj (h.symm.trans h₂)
          exact ih hrest₂

/-- **A search over a linked row ends, and finds what is in the row.** -/
theorem Pool.Linked.search {p : Pool α n m} {l : Fin m} {a : Option (Fin n)} {s : Row n}
    (h : p.Linked l a s none) (hs : s.Nodup) (x : Fin n) :
    (Walk.ofRow s).Search p x (decide (x ∈ s)) := by
  induction s generalizing a with
  | nil => exact .exhausted rfl
  | cons y s ih =>
      have hnext := h.walk_next hs
      by_cases hy : y = x
      · subst hy
        rw [decide_eq_true List.mem_cons_self]
        exact .hit hnext
      · have hrest := ih h.2 (List.nodup_cons.1 hs).2
        have hmem : (x ∈ y :: s) = (x ∈ s) := by simp [Ne.symm hy]
        simp only [hmem]
        exact .miss hnext hy hrest

/-! ### Operations behind the check -/

/-- The operation returns if the node that it was given is a member, and stops at the check of
membership if it is not. -/
structure Guarded (member : Prop) (op : Except Fault β) : Prop where
  returns : member → ∃ b, op = .ok b
  stops : ¬ member → op = .error .notMember

namespace Pool.Represents

variable {p : Pool α n m} {s : Rows n m} {l : Fin m} {x y : Fin n}

/-- A node is found on a list exactly if it is in its row. -/
theorem contains_eq (h : p.Represents s) : p.contains l x = decide (x ∈ s l) :=
  Bool.eq_iff_iff.2 (h.contains_iff.trans decide_eq_true_iff.symm)

/-- What comes behind the check, and returns, is guarded by it. -/
theorem guarded_of_check (h : p.Represents s) {rest : Except Fault β}
    (hrest : x ∈ s l → ∃ b, rest = .ok b) :
    Guarded (x ∈ s l) (p.checkMember l x >>= fun _ => rest) := by
  refine ⟨fun hx => ?_, fun hx => ?_⟩
  · obtain ⟨b, hb⟩ := hrest hx
    exact ⟨b, by rw [h.checkMember_of_mem hx, hb]; rfl⟩
  · rw [h.checkMember_of_notMem hx]
    rfl

theorem guarded_insertAfter (h : p.Represents s) (hy : s.Unlisted y) :
    Guarded (x ∈ s l) (p.insertAfter l (some x) y) := by
  refine h.guarded_of_check fun hx => ?_
  obtain ⟨q, hq, -⟩ := h.insertAfter_position (a := some x) (by rintro z ⟨⟩; exact hx) hy
  obtain ⟨_, -, hlink⟩ := bind_eq_ok.1 hq
  exact ⟨q, hlink⟩

theorem guarded_insertBefore (h : p.Represents s) (hy : s.Unlisted y) :
    Guarded (x ∈ s l) (p.insertBefore l (some x) y) := by
  refine h.guarded_of_check fun hx => ?_
  obtain ⟨q, hq, -⟩ := h.insertBefore_position (a := some x) (by rintro z ⟨⟩; exact hx) hy
  obtain ⟨_, -, hlink⟩ := bind_eq_ok.1 hq
  exact ⟨q, hlink⟩

theorem guarded_remove (h : p.Represents s) : Guarded (x ∈ s l) (p.remove l x) :=
  h.guarded_of_check fun _ => ⟨_, rfl⟩

theorem guarded_cutBefore (h : p.Represents s) (tail : Fin m) :
    Guarded (x ∈ s l) (p.cutBefore l x tail) :=
  h.guarded_of_check fun _ => ⟨_, rfl⟩

theorem guarded_cutThrough (h : p.Represents s) (front : Fin m) :
    Guarded (x ∈ s l) (p.cutThrough l x front) :=
  h.guarded_of_check fun _ => ⟨_, rfl⟩

theorem guarded_onNode (h : p.Represents s) (d : Direction) :
    Guarded (x ∈ s l) (Cursor.onNode d p l x) :=
  h.guarded_of_check fun _ => ⟨_, rfl⟩

end Pool.Represents

/-! ### Sessions -/

namespace ListSession

variable {s : ListSession α n m k} {rows : Rows n m} {l : Fin m} {x : Fin n}

theorem step_tryRemove_of_mem (h : s.pool.Represents rows) (hx : x ∈ rows l) :
    s.step (.edit (.tryRemove l x)) = s.step (.edit (.remove l x)) := by
  have hfound := h.contains_iff.2 hx
  obtain ⟨q, hq⟩ := h.guarded_remove.returns hx
  have htry : (ListEdit.tryRemove l x).apply s.pool = (ListEdit.remove l x).apply s.pool := by
    simp only [ListEdit.apply, ListEdit.isSound, ListEdit.lists?, ListEdit.effect, Pool.remove?,
      if_pos hfound, hq]
    rfl
  rw [step, step, htry]

theorem step_tryRemove_of_notMem (h : s.pool.Represents rows) (hx : x ∉ rows l) :
    s.step (.edit (.tryRemove l x)) = .ok (s.answer (.refused .notAMember)) := by
  have hmissing : ¬ s.pool.contains l x = true := fun hc => hx (h.contains_iff.1 hc)
  have htry : (ListEdit.tryRemove l x).apply s.pool = .ok (.refused .notAMember, s.pool) := by
    simp only [ListEdit.apply, ListEdit.isSound, ListEdit.lists?, ListEdit.effect, Pool.remove?,
      if_neg hmissing]
    rfl
  rw [step, htry]
  rfl

theorem step_tryOnNode_of_mem (h : s.pool.Represents rows) (hx : x ∈ rows l)
    (slot : Option (Fin k)) (d : Direction) :
    s.step (.tryOnNode slot d l x) = s.step (.onNode slot d l x) := by
  have hfound := h.contains_iff.2 hx
  simp only [step, Cursor.onNode?, if_pos hfound, Cursor.onNode, h.checkMember_of_mem hx]
  rfl

theorem step_tryOnNode_of_notMem (h : s.pool.Represents rows) (hx : x ∉ rows l)
    (slot : Option (Fin k)) (d : Direction) :
    s.step (.tryOnNode slot d l x) = .ok (s.answer (.refused .notAMember)) := by
  have hmissing : ¬ s.pool.contains l x = true := fun hc => hx (h.contains_iff.1 hc)
  simp only [step, Cursor.onNode?, if_neg hmissing]

end ListSession

/-- **The check of membership is exact.**  The lists are linked along rows with no node in common, and
the nodes on no list may have any links.  For every list and every node:

* the search for the node ends, with the answer whether the node is in the row of the list;
* what needs the node on the list returns if it is there, and stops at the check if it is not;
* what asks for it first does the same as what needs it if the node is there, and declines with the
  session as it was if it is not. -/
theorem membership_guards_are_exact {s : ListSession α n m k} {rows : Rows n m}
    (h : s.pool.Represents rows) (l : Fin m) (x : Fin n) :
    ((∀ b, (s.pool.walk l).Search s.pool x b ↔ b = decide (x ∈ rows l)) ∧
        s.step (.query (.contains l x)) = .ok (s.answer (.flag (decide (x ∈ rows l))))) ∧
      ((∀ y, rows.Unlisted y → Guarded (x ∈ rows l) (s.pool.insertAfter l (some x) y) ∧
          Guarded (x ∈ rows l) (s.pool.insertBefore l (some x) y)) ∧
        Guarded (x ∈ rows l) (s.pool.remove l x) ∧
        (∀ t, Guarded (x ∈ rows l) (s.pool.cutBefore l x t) ∧
          Guarded (x ∈ rows l) (s.pool.cutThrough l x t)) ∧
        (∀ d, Guarded (x ∈ rows l) (Cursor.onNode d s.pool l x)) ∧
        Fault.notMember.message = "Node must be a member of the list it is used with") ∧
      (x ∈ rows l →
        s.step (.edit (.tryRemove l x)) = s.step (.edit (.remove l x)) ∧
          ∀ slot d, s.step (.tryOnNode slot d l x) = s.step (.onNode slot d l x)) ∧
      (x ∉ rows l →
        s.step (.edit (.tryRemove l x)) = .ok (s.answer (.refused .notAMember)) ∧
          ∀ slot d, s.step (.tryOnNode slot d l x) = .ok (s.answer (.refused .notAMember))) := by
  refine ⟨⟨fun b => ?_, ?_⟩, ⟨fun y hy => ?_, ?_, fun t => ?_, h.guarded_onNode, rfl⟩, fun hx => ?_,
    fun hx => ?_⟩
  · have hsearch := (h.linked l).search (h.apart.nodup l) x
    rw [← (h.linked l).walk_eq] at hsearch
    refine ⟨fun hb => hb.unique hsearch, ?_⟩
    rintro rfl
    exact hsearch
  · rw [ListSession.step, ListQuery.answer, h.contains_eq]
  · exact ⟨h.guarded_insertAfter hy, h.guarded_insertBefore hy⟩
  · exact h.guarded_remove
  · exact ⟨h.guarded_cutBefore t, h.guarded_cutThrough t⟩
  · exact ⟨ListSession.step_tryRemove_of_mem h hx, ListSession.step_tryOnNode_of_mem h hx⟩
  · exact ⟨ListSession.step_tryRemove_of_notMem h hx, ListSession.step_tryOnNode_of_notMem h hx⟩

/-- Nodes that a list of two refuses: one that is on another list, one that was taken off, and one that
was dropped and still has links to both members. -/
theorem membership_guards_are_exact_stale_links :
    let s : ListSession Nat 5 2 1 :=
      ⟨⟨#v[⟨⟨some 1, none⟩, 10⟩, ⟨⟨none, some 0⟩, 11⟩, ⟨⟨none, none⟩, 12⟩, ⟨⟨none, none⟩, 13⟩,
          ⟨⟨some 1, some 0⟩, 14⟩], #v[⟨some 0, some 1⟩, ⟨some 2, some 2⟩]⟩,
        #v[some ⟨.backward, 0, some 1⟩]⟩
    let rows : Rows 5 2 := ![[0, 1], [2]]
    s.pool.Represents rows ∧
      ((s.pool.walk 0).Search s.pool 1 true ∧
        s.step (.edit (.tryRemove 0 1)) = s.step (.edit (.remove 0 1)) ∧
        ∃ q, s.pool.remove 0 1 = .ok q) ∧
      ∀ x ∈ [2, 3, 4], (s.pool.walk 0).Search s.pool x false ∧
        s.pool.remove 0 x = .error .notMember ∧
        s.pool.cutThrough 0 x 1 = .error .notMember ∧
        Cursor.onNode .forward s.pool 0 x = .error .notMember ∧
        s.step (.edit (.tryRemove 0 x)) = .ok (s.answer (.refused .notAMember)) ∧
        s.step (.tryOnNode (some 0) .backward 0 x) = .ok (s.answer (.refused .notAMember)) := by
  intro s rows
  have h : s.pool.Represents rows := by decide
  have hrefused : ∀ x ∈ [2, 3, 4], x ∉ rows 0 := by decide
  refine ⟨h, ?_, fun x hx => ?_⟩
  · obtain ⟨⟨hsearch, -⟩, ⟨-, hremove, -⟩, hfound, -⟩ := membership_guards_are_exact h 0 1
    exact ⟨(hsearch true).2 (by decide), (hfound (by decide)).1, hremove.returns (by decide)⟩
  · obtain ⟨⟨hsearch, -⟩, ⟨-, hremove, hcut, hcursor, -⟩, -, hmissing⟩ :=
      membership_guards_are_exact h 0 x
    have hout := hrefused x hx
    exact ⟨(hsearch false).2 (decide_eq_false hout).symm, hremove.stops hout,
      (hcut 1).2.stops hout, (hcursor .forward).stops hout, (hmissing hout).1,
      (hmissing hout).2 (some 0) .backward⟩

end SpanChain
