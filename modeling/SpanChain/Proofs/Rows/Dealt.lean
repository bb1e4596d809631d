/-
**Rows dealt from both ends.**

A walk over a list remembers two nodes only, the next one from the front and the next one from the
back.  On a linked row these are the two ends of what is left of it.  So however calls at the front
and at the back follow one another, a walk deals the row: each call gets the outermost node on its
side that is left, until there is none.

Main definitions:

* `SpanChain.Row.outer`, `SpanChain.Row.without` — the node at one end of a row, and the others;
* `SpanChain.Row.deal`, `SpanChain.Row.left` — what a word of calls gets, and what it leaves;
* `SpanChain.Row.Deals` — the answers that deal a row, call by call.

Main results:

* `SpanChain.Row.left_eq` — what is left is the middle of the row;
* `SpanChain.Row.deals_deal` — dealing gives every node once, to the call whose turn it is;
* `SpanChain.Pool.Linked.walk_run` — a walk over a linked row deals it;
* `SpanChain.walks_deal_rows` — **so it does in sessions of both kinds**.
-/

import SpanChain.Proofs.Rows.Represents
import SpanChain.Session.Buffers
import SpanChain.Session.Lists

set_option relaxedAutoImplicit false
set_option autoImplicit false

namespace SpanChain

variable {α : Type} {n m k : Nat}

/-- Every call is at one of the two ends. -/
theorem Side.count_add_count (word : List Side) :
    word.count .front + word.count .back = word.length := by
  induction word with
  | nil => rfl
  | cons side word ih =>
      cases side <;> simp <;> omega

/-! ### Dealing a row -/

namespace Row

variable {s : Row n} {word u v : List Side} {side : Side} {i : Nat}

/-- The node at one end of a row. -/
def outer (s : Row n) : Side → Option (Fin n)
  | .front => s.head?
  | .back => s.getLast?

/-- The row without the node at one end. -/
def without (s : Row n) : Side → Row n
  | .front => s.tail
  | .back => s.dropLast

/-- What the calls of a word get, each the node at its end of what is left. -/
def deal (s : Row n) : List Side → List (Option (Fin n))
  | [] => []
  | side :: word => s.outer side :: deal (s.without side) word

/-- What the calls of a word leave of a row. -/
def left (s : Row n) : List Side → Row n
  | [] => s
  | side :: word => left (s.without side) word

@[simp] theorem deal_cons : s.deal (side :: word) = s.outer side :: (s.without side).deal word := rfl

@[simp] theorem left_cons : s.left (side :: word) = (s.without side).left word := rfl

@[simp] theorem outer_concat (s : Row n) (x : Fin n) : outer (s ++ [x]) .back = some x :=
  List.getLast?_concat

@[simp] theorem without_concat (s : Row n) (x : Fin n) : without (s ++ [x]) .back = s :=
  List.dropLast_concat

@[simp] theorem length_deal (s : Row n) (word : List Side) : (s.deal word).length = word.length := by
  induction word generalizing s with
  | nil => rfl
  | cons side word ih => rw [deal_cons, List.length_cons, ih, List.length_cons]

/-- A call gets the node at its end of what the calls before it have left. -/
theorem getElem?_deal (s : Row n) (word : List Side) (i : Nat) :
    (s.deal word)[i]? = word[i]?.map (s.left (word.take i)).outer := by
  induction word generalizing s i with
  | nil => rfl
  | cons side word ih =>
      cases i with
      | zero => rfl
      | succ i =>
          rw [deal_cons, List.getElem?_cons_succ, ih, List.getElem?_cons_succ, List.take_succ_cons,
            left_cons]

/-- **What is left is the middle of the row**, behind as many nodes as there were calls at the
front. -/
theorem left_eq (s : Row n) (word : List Side) :
    s.left word = (s.drop (word.count .front)).take (s.length - word.length) := by
  induction word generalizing s with
  | nil => simp [left]
  | cons side word ih =>
      rw [left_cons, ih]
      cases side with
      | front =>
          rw [List.count_cons_self, List.length_cons, without, ← List.drop_one, List.drop_drop,
            List.length_drop, Nat.add_comm 1, Nat.sub_sub, Nat.add_comm 1]
      | back =>
          have hcount := Side.count_add_count word
          rw [List.count_cons_of_ne (by decide), List.length_cons, without, List.dropLast_eq_take,
            List.drop_take, List.take_take, List.length_take]
          congr 1
          omega

theorem left_eq_nil (h : s.length ≤ word.length) : s.left word = [] := by
  rw [left_eq, Nat.sub_eq_zero_of_le h, List.take_zero]

theorem outer_left_front (h : word.length < s.length) :
    (s.left word).outer .front = s[word.count .front]? := by
  rw [left_eq, outer, List.head?_take, if_neg (by omega), List.head?_drop]

theorem outer_left_back (h : word.length < s.length) :
    (s.left word).outer .back = s[s.length - 1 - word.count .back]? := by
  have hcount := Side.count_add_count word
  -- the last node of the middle is behind the calls at the front and all that is left
  have hindex : word.count .front + (s.length - word.length - 1) =
      s.length - 1 - word.count .back := by omega
  have hlt : s.length - 1 - word.count .back < s.length := by omega
  rw [left_eq, outer, List.getLast?_take, if_neg (by omega), List.getElem?_drop, hindex,
    List.getElem?_eq_getElem hlt, Option.some_or]

/-- **Every node is dealt or left**, and once. -/
theorem deal_append_left_perm (s : Row n) (word : List Side) :
    ((s.deal word).take s.length ++ (s.left word).map some).Perm (s.map some) := by
  induction word generalizing s with
  | nil => simp [deal, left]
  | cons side word ih =>
      cases side with
      | front =>
          cases s with
          | nil => simp [left_eq]
          | cons x s => exact (ih s).cons (some x)
      | back =>
          cases s using List.reverseRecOn with
          | nil => simp [left_eq]
          | append_singleton s x =>
              rw [deal_cons, left_cons, without_concat, outer_concat, List.length_append,
                List.length_singleton, List.take_succ_cons, List.cons_append, List.map_append]
              exact ((ih s).cons (some x)).trans (List.perm_append_singleton _ _).symm

/-- The answers deal the row to the calls of the word. -/
structure Deals (s : Row n) (word : List Side) (answers : List (Option (Fin n))) : Prop where
  /-- Every call is answered. -/
  length : answers.length = word.length
  /-- As long as nodes are left, the calls at the front get the nodes from the first one on, in
  order. -/
  front : ∀ i < s.length, word[i]? = some .front →
    ∃ x, s[(word.take i).count .front]? = some x ∧ answers[i]? = some (some x)
  /-- As long as nodes are left, the calls at the back get the nodes from the last one on, in reverse
  order. -/
  back : ∀ i < s.length, word[i]? = some .back →
    ∃ x, s[s.length - 1 - (word.take i).count .back]? = some x ∧ answers[i]? = some (some x)
  /-- A call behind as many as the row has nodes gets none. -/
  exhausted : ∀ i, s.length ≤ i → i < word.length → answers[i]? = some none
  /-- No node is dealt twice. -/
  once : (answers.take s.length).Subperm (s.map some)
  /-- If there are enough calls, all nodes are dealt. -/
  all : s.length ≤ word.length → (answers.take s.length).Perm (s.map some)

/-- **Dealing gives every node once**, to the call whose turn it is. -/
theorem deals_deal (s : Row n) (word : List Side) : s.Deals word (s.deal word) := by
  have hperm := s.deal_append_left_perm word
  have hbefore : ∀ {i side}, word[i]? = some side → (word.take i).length = i := by
    intro i side hi
    exact List.length_take_of_le (List.getElem?_eq_some_iff.1 hi).1.le
  refine ⟨s.length_deal word, fun i hi hside => ?_, fun i hi hside => ?_, fun i hs hi => ?_, ?_,
    fun hlong => ?_⟩
  · have hlen := hbefore hside
    have hcount := Side.count_add_count (word.take i)
    have hlt : (word.take i).count .front < s.length := by omega
    refine ⟨_, List.getElem?_eq_getElem hlt, ?_⟩
    rw [getElem?_deal, hside, Option.map_some, outer_left_front (by omega),
      List.getElem?_eq_getElem hlt]
  · have hlen := hbefore hside
    have hlt : s.length - 1 - (word.take i).count .back < s.length := by omega
    refine ⟨_, List.getElem?_eq_getElem hlt, ?_⟩
    rw [getElem?_deal, hside, Option.map_some, outer_left_back (by omega),
      List.getElem?_eq_getElem hlt]
  · have hlen : (word.take i).length = i := List.length_take_of_le hi.le
    rw [getElem?_deal, left_eq_nil (by omega), List.getElem?_eq_getElem hi, Option.map_some]
    cases word[i] <;> rfl
  · exact (List.sublist_append_left _ _).subperm.trans hperm.subperm
  · rwa [left_eq_nil hlong, List.map_nil, List.append_nil] at hperm

end Row

/-! ### Walks over linked rows -/

namespace Pool

variable {p : Pool α n m} {l : Fin m} {a b : Option (Fin n)} {s : Row n}

/-- One node from either end of a walk over a linked row: the walk that is left is the one over the
row that is left, and the row is linked still. -/
theorem Linked.walk_pull (h : p.Linked l a s b) (hs : s.Nodup) (side : Side) :
    (Walk.ofRow s).pull p side = (s.outer side, Walk.ofRow (s.without side)) ∧
      ∃ a' b', p.Linked l a' (s.without side) b' := by
  cases side with
  | front =>
      cases s with
      | nil => exact ⟨rfl, a, b, h⟩
      | cons x s => exact ⟨h.walk_next hs, some x, b, h.2⟩
  | back =>
      cases s using List.reverseRecOn with
      | nil => exact ⟨rfl, a, b, h⟩
      | append_singleton s x =>
          rw [Row.without_concat, Row.outer_concat]
          exact ⟨h.walk_nextBack hs, a, some x, (linked_append_cons.1 h).1⟩

/-- **A walk over a linked row deals it.** -/
theorem Linked.walk_run (h : p.Linked l a s b) (hs : s.Nodup) (word : List Side) :
    (Walk.ofRow s).run p word = s.deal word := by
  induction word generalizing a s b with
  | nil => rfl
  | cons side word ih =>
      obtain ⟨hpull, a', b', hlinked⟩ := h.walk_pull hs side
      have hnodup : (s.without side).Nodup := by
        cases side with
        | front => exact hs.sublist (List.tail_sublist s)
        | back => exact hs.sublist (List.dropLast_sublist s)
      rw [Walk.run, hpull, Row.deal_cons, ih hlinked hnodup]

/-- A walk backwards over a linked row gives its nodes in reverse order. -/
theorem Linked.walk_takeBack (h : p.Linked l a s b) (hs : s.Nodup) {j : Nat} (hj : s.length ≤ j) :
    (Walk.ofRow s).takeBack p j = s.reverse := by
  induction s using List.reverseRecOn generalizing b j with
  | nil => cases j <;> rfl
  | append_singleton s x ih =>
      obtain ⟨j, rfl⟩ : ∃ i, j = i + 1 := ⟨j - 1, by simp at hj; omega⟩
      rw [Walk.takeBack, h.walk_nextBack hs]
      simp only
      rw [ih (linked_append_cons.1 h).1 (hs.sublist (List.sublist_append_left s [x]))
        (by simpa using hj), List.reverse_concat]

end Pool

/-- **A walk deals the row of its list**, in sessions of both kinds, if the list is linked along a row
without repetition; nothing is asked of the other lists.  Whatever calls are made at its two ends:

* those at the front get the nodes from the first one on and those at the back the nodes from the last
  one on, together every node once and then none;
* the spans that such calls get are those of the nodes;
* the session stays as it is.

So the nodes that are counted are those of the row, and a walk backwards gives the row reversed. -/
theorem walks_deal_rows {row : Row n} (hrow : row.Nodup) (l : Fin m) (word : List Side) :
    ∃ answers, row.Deals word answers ∧
      (∀ s : ListSession α n m k, s.pool.Linked l none row none →
        s.step (.query (.walk l word)) = .ok (s.answer (.nodes answers)) ∧
        s.step (.query (.count l)) = .ok (s.answer (.size row.length)) ∧
        ∀ j, row.length ≤ j → (s.pool.walk l).take s.pool j = row ∧
          (s.pool.walk l).takeBack s.pool j = row.reverse) ∧
      ∀ s : BufferSession n m k, s.pool.Linked l none row none →
        s.step (.query (.walk l word)) = .ok (s.answer (.nodes answers)) ∧
        s.step (.spans l word) =
          .ok (s.answer (.data (answers.map (Option.map s.pool.data)))) ∧
        s.step (.query (.count l)) = .ok (s.answer (.size row.length)) := by
  refine ⟨row.deal word, row.deals_deal word, fun s h => ⟨?_, ?_, fun j hj => ⟨?_, ?_⟩⟩,
    fun s h => ⟨?_, ?_, ?_⟩⟩
  · rw [ListSession.step, ListQuery.answer, h.walk_eq, h.walk_run hrow]
  · rw [ListSession.step, ListQuery.answer, Pool.count, h.members_eq hrow]
  · rw [h.walk_eq, h.walk_take hrow hj]
  · rw [h.walk_eq, h.walk_takeBack hrow hj]
  · rw [BufferSession.step, ListQuery.answer, h.walk_eq, h.walk_run hrow]
  · rw [BufferSession.step, h.walk_eq, h.walk_run hrow]
  · rw [BufferSession.step, ListQuery.answer, Pool.count, h.members_eq hrow]

/-- Calls from both ends meet at the node in the middle of a list of three, behind which there is none.
The other list has ends left over from the same nodes. -/
theorem walks_deal_rows_meeting_inside :
    let pool : Pool Span 5 2 :=
      ⟨#v[⟨⟨some 2, some 3⟩, .empty⟩, ⟨⟨some 0, some 2⟩, ⟨.inMemory 9, 1, by decide⟩⟩,
          ⟨⟨none, some 0⟩, ⟨.inMemory 0, 4, by decide⟩⟩, ⟨⟨some 0, none⟩, ⟨.null, 7, by decide⟩⟩,
          ⟨⟨none, none⟩, .empty⟩],
        #v[⟨some 3, some 2⟩, ⟨some 0, some 3⟩]⟩
    let s : BufferSession 5 2 1 := ⟨pool, .pattern 4 0 1, #v[none]⟩
    let t : ListSession Span 5 2 1 := ⟨pool, #v[none]⟩
    let row : Row 5 := [3, 0, 2]
    let word : List Side := [.back, .front, .back, .front, .back]
    row.Nodup ∧ pool.Linked 0 none row none ∧ ¬ pool.WellFormed ∧
      ∃ answers, row.Deals word answers ∧ answers = [some 2, some 3, some 0, none, none] ∧
        t.step (.query (.walk 0 word)) = .ok (t.answer (.nodes answers)) ∧
        t.step (.query (.count 0)) = .ok (t.answer (.size 3)) ∧
        (pool.walk 0).takeBack pool 9 = [2, 0, 3] ∧
        s.step (.spans 0 word) = .ok (s.answer (.data (answers.map (Option.map pool.data)))) := by
  intro pool s t row word
  have hrow : row.Nodup := by decide
  have h : pool.Linked 0 none row none := by decide
  obtain ⟨answers, hdeals, hlist, hbuffer⟩ :=
    walks_deal_rows (α := Span) (m := 2) (k := 1) hrow 0 word
  obtain ⟨hwalk, hcount, hcollect⟩ := hlist t h
  have hanswers : answers = [some 2, some 3, some 0, none, none] :=
    Reply.nodes.inj (congrArg Outcome.reply (Except.ok.inj hwalk)).symm
  exact ⟨hrow, h, by decide, answers, hdeals, hanswers, hwalk, hcount,
    (hcollect 9 (by decide)).2, (hbuffer s h).2.1⟩

end SpanChain
