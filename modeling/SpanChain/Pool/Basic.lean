/-
**The pool of nodes and the ends of lists.**

A pool holds `n` nodes and the ends of `m` lists.  Every node carries its own links, so a list is
no more than the names of its first and last node.  Nothing forces the links and the ends to fit
together: a node that was dropped keeps the links it had.

The operations of the later modules look at a list as a ring that is closed by a gap between its
last and its first node.  A *position* is a node or, as `none`, that gap; behind the gap comes the
first node and in front of it the last.

Main definitions:

* `SpanChain.Link`, `SpanChain.Node`, `SpanChain.Ends`, `SpanChain.Pool`;
* `SpanChain.Pool.next`, `SpanChain.Pool.prev`, `SpanChain.Pool.data`, `SpanChain.Pool.first`,
  `SpanChain.Pool.last` — the observations;
* `SpanChain.Pool.setNext` and its like — the writes;
* `SpanChain.Pool.after`, `SpanChain.Pool.before`, `SpanChain.Pool.setAfter`,
  `SpanChain.Pool.setBefore` — the same for the positions of a list.

Main results:

* `SpanChain.Pool.ext` — a pool is determined by the observations;
* `SpanChain.Pool.next_setNext` and its like — what each write does to each observation.
-/

set_option relaxedAutoImplicit false
set_option autoImplicit false

namespace SpanChain

/-! ### Nodes, ends and pools -/

/-- The two links of a node. -/
structure Link (n : Nat) where
  next : Option (Fin n) := none
  prev : Option (Fin n) := none
  deriving DecidableEq, Repr

/-- A node: its links and what it carries. -/
structure Node (α : Type) (n : Nat) where
  link : Link n := {}
  /-- What the node carries. -/
  data : α
  deriving DecidableEq, Repr

/-- All that a list stores itself. -/
structure Ends (n : Nat) where
  first : Option (Fin n) := none
  last : Option (Fin n) := none
  deriving DecidableEq, Repr

/-- The nodes and the lists of a session. -/
structure Pool (α : Type) (n m : Nat) where
  nodes : Vector (Node α n) n
  /-- The ends of the lists. -/
  lists : Vector (Ends n) m
  deriving DecidableEq

variable {α : Type} {n m : Nat}

namespace Pool

/-- A pool of unlinked nodes and empty lists. -/
def ofData (data : Vector α n) (m : Nat) : Pool α n m :=
  ⟨data.map fun x => ⟨{}, x⟩, Vector.replicate m {}⟩

/-! ### Observations -/

/-- What follows a node. -/
def next (p : Pool α n m) (x : Fin n) : Option (Fin n) := p.nodes[x].link.next

/-- What precedes a node. -/
def prev (p : Pool α n m) (x : Fin n) : Option (Fin n) := p.nodes[x].link.prev

/-- What a node carries. -/
def data (p : Pool α n m) (x : Fin n) : α := p.nodes[x].data

/-- The ends of a list. -/
def ends (p : Pool α n m) (l : Fin m) : Ends n := p.lists[l]

/-- The first node of a list. -/
def first (p : Pool α n m) (l : Fin m) : Option (Fin n) := (p.ends l).first

/-- The last node of a list. -/
def last (p : Pool α n m) (l : Fin m) : Option (Fin n) := (p.ends l).last

/-- Whether a list has no nodes. -/
def isEmpty (p : Pool α n m) (l : Fin m) : Bool := (p.first l).isNone

/-- A pool is determined by what is observed of it. -/
protected theorem ext {p q : Pool α n m} (next : ∀ x, p.next x = q.next x)
    (prev : ∀ x, p.prev x = q.prev x) (data : ∀ x, p.data x = q.data x)
    (first : ∀ l, p.first l = q.first l) (last : ∀ l, p.last l = q.last l) : p = q := by
  obtain ⟨pn, pl⟩ := p
  obtain ⟨qn, ql⟩ := q
  congr 1
  · refine Vector.ext fun i h => ?_
    have h₁ := next ⟨i, h⟩
    have h₂ := prev ⟨i, h⟩
    have h₃ := data ⟨i, h⟩
    simp only [Pool.next, Pool.prev, Pool.data, Fin.getElem_fin] at h₁ h₂ h₃
    revert h₁ h₂ h₃
    rcases pn[i] with ⟨⟨_, _⟩, _⟩
    rcases qn[i] with ⟨⟨_, _⟩, _⟩
    rintro rfl rfl rfl
    rfl
  · refine Vector.ext fun i h => ?_
    have h₁ := first ⟨i, h⟩
    have h₂ := last ⟨i, h⟩
    simp only [Pool.first, Pool.last, Pool.ends, Fin.getElem_fin] at h₁ h₂
    revert h₁ h₂
    rcases pl[i] with ⟨_, _⟩
    rcases ql[i] with ⟨_, _⟩
    rintro rfl rfl
    rfl

/-! ### Writes -/

/-- The pool with a node replaced by a changed one. -/
def modifyNode (p : Pool α n m) (x : Fin n) (f : Node α n → Node α n) : Pool α n m :=
  { p with nodes := p.nodes.set x (f p.nodes[x]) }

/-- The pool with the forward link of a node replaced. -/
def setNext (p : Pool α n m) (x : Fin n) (y : Option (Fin n)) : Pool α n m :=
  p.modifyNode x fun v => { v with link.next := y }

/-- The pool with the backward link of a node replaced. -/
def setPrev (p : Pool α n m) (x : Fin n) (y : Option (Fin n)) : Pool α n m :=
  p.modifyNode x fun v => { v with link.prev := y }

/-- The pool with what a node carries replaced. -/
def setData (p : Pool α n m) (x : Fin n) (d : α) : Pool α n m :=
  p.modifyNode x fun v => { v with data := d }

/-- The pool with both links of a node cleared. -/
def unlink (p : Pool α n m) (x : Fin n) : Pool α n m :=
  p.modifyNode x fun v => { v with link := {} }

/-- The pool with the ends of a list replaced. -/
def setEnds (p : Pool α n m) (l : Fin m) (e : Ends n) : Pool α n m :=
  { p with lists := p.lists.set l e }

/-- The pool with the first node of a list replaced. -/
def setFirst (p : Pool α n m) (l : Fin m) (x : Option (Fin n)) : Pool α n m :=
  p.setEnds l { p.ends l with first := x }

/-- The pool with the last node of a list replaced. -/
def setLast (p : Pool α n m) (l : Fin m) (x : Option (Fin n)) : Pool α n m :=
  p.setEnds l { p.ends l with last := x }

/-- The pool with a list emptied.  The nodes keep their links. -/
def clear (p : Pool α n m) (l : Fin m) : Pool α n m := p.setEnds l {}

/-- The pool with the ends of one list copied onto another, so that both describe one chain. -/
def shareEnds (p : Pool α n m) (l src : Fin m) : Pool α n m := p.setEnds l (p.ends src)

/-- The pool with the ends of two lists exchanged. -/
def swap (p : Pool α n m) (l k : Fin m) : Pool α n m :=
  (p.setEnds l (p.ends k)).setEnds k (p.ends l)

/-! ### What each write does -/

section Lemmas

variable (p : Pool α n m) (x y : Fin n) (z : Option (Fin n)) (d : α) (l k : Fin m) (e : Ends n)
  (f : Node α n → Node α n)

theorem getElem_modifyNode :
    (p.modifyNode x f).nodes[y] = if y = x then f p.nodes[x] else p.nodes[y] := by
  simp only [modifyNode, Fin.getElem_fin, Vector.getElem_set, Fin.ext_iff, eq_comm]

@[simp] theorem ends_modifyNode : (p.modifyNode x f).ends l = p.ends l := rfl

@[simp] theorem next_setNext :
    (p.setNext x z).next y = if y = x then z else p.next y := by
  simp only [next, setNext, getElem_modifyNode]; split <;> rfl

@[simp] theorem prev_setNext : (p.setNext x z).prev y = p.prev y := by
  simp only [prev, setNext, getElem_modifyNode]; split <;> simp_all

@[simp] theorem data_setNext : (p.setNext x z).data y = p.data y := by
  simp only [data, setNext, getElem_modifyNode]; split <;> simp_all

@[simp] theorem ends_setNext : (p.setNext x z).ends l = p.ends l := rfl

@[simp] theorem prev_setPrev :
    (p.setPrev x z).prev y = if y = x then z else p.prev y := by
  simp only [prev, setPrev, getElem_modifyNode]; split <;> rfl

@[simp] theorem next_setPrev : (p.setPrev x z).next y = p.next y := by
  simp only [next, setPrev, getElem_modifyNode]; split <;> simp_all

@[simp] theorem data_setPrev : (p.setPrev x z).data y = p.data y := by
  simp only [data, setPrev, getElem_modifyNode]; split <;> simp_all

@[simp] theorem ends_setPrev : (p.setPrev x z).ends l = p.ends l := rfl

@[simp] theorem data_setData :
    (p.setData x d).data y = if y = x then d else p.data y := by
  simp only [data, setData, getElem_modifyNode]; split <;> rfl

@[simp] theorem next_setData : (p.setData x d).next y = p.next y := by
  simp only [next, setData, getElem_modifyNode]; split <;> simp_all

@[simp] theorem prev_setData : (p.setData x d).prev y = p.prev y := by
  simp only [prev, setData, getElem_modifyNode]; split <;> simp_all

@[simp] theorem ends_setData : (p.setData x d).ends l = p.ends l := rfl

@[simp] theorem next_unlink :
    (p.unlink x).next y = if y = x then none else p.next y := by
  simp only [next, unlink, getElem_modifyNode]; split <;> rfl

@[simp] theorem prev_unlink :
    (p.unlink x).prev y = if y = x then none else p.prev y := by
  simp only [prev, unlink, getElem_modifyNode]; split <;> rfl

@[simp] theorem data_unlink : (p.unlink x).data y = p.data y := by
  simp only [data, unlink, getElem_modifyNode]; split <;> simp_all

@[simp] theorem ends_unlink : (p.unlink x).ends l = p.ends l := rfl

@[simp] theorem next_setEnds : (p.setEnds l e).next y = p.next y := rfl

@[simp] theorem prev_setEnds : (p.setEnds l e).prev y = p.prev y := rfl

@[simp] theorem data_setEnds : (p.setEnds l e).data y = p.data y := rfl

@[simp] theorem ends_setEnds :
    (p.setEnds l e).ends k = if k = l then e else p.ends k := by
  simp only [ends, setEnds, Fin.getElem_fin, Vector.getElem_set, Fin.ext_iff, eq_comm]

@[simp] theorem next_setFirst : (p.setFirst l z).next y = p.next y := rfl

@[simp] theorem prev_setFirst : (p.setFirst l z).prev y = p.prev y := rfl

@[simp] theorem data_setFirst : (p.setFirst l z).data y = p.data y := rfl

@[simp] theorem next_setLast : (p.setLast l z).next y = p.next y := rfl

@[simp] theorem prev_setLast : (p.setLast l z).prev y = p.prev y := rfl

@[simp] theorem data_setLast : (p.setLast l z).data y = p.data y := rfl

@[simp] theorem next_clear : (p.clear l).next y = p.next y := rfl

@[simp] theorem prev_clear : (p.clear l).prev y = p.prev y := rfl

@[simp] theorem data_clear : (p.clear l).data y = p.data y := rfl

@[simp] theorem next_shareEnds : (p.shareEnds l k).next y = p.next y := rfl

@[simp] theorem prev_shareEnds : (p.shareEnds l k).prev y = p.prev y := rfl

@[simp] theorem data_shareEnds : (p.shareEnds l k).data y = p.data y := rfl

@[simp] theorem next_swap : (p.swap l k).next y = p.next y := rfl

@[simp] theorem prev_swap : (p.swap l k).prev y = p.prev y := rfl

@[simp] theorem data_swap : (p.swap l k).data y = p.data y := rfl

@[simp] theorem ends_setFirst :
    (p.setFirst l z).ends k = if k = l then { p.ends l with first := z } else p.ends k := by
  simp [setFirst]

@[simp] theorem ends_setLast :
    (p.setLast l z).ends k = if k = l then { p.ends l with last := z } else p.ends k := by
  simp [setLast]

@[simp] theorem ends_clear : (p.clear l).ends k = if k = l then {} else p.ends k := by
  simp [clear]

@[simp] theorem ends_shareEnds :
    (p.shareEnds l k).ends l = p.ends k := by
  simp [shareEnds]

end Lemmas

section Lemmas

variable (p : Pool α n m) (x : Fin n) (z : Option (Fin n)) (d : α) (l k : Fin m) (e : Ends n)

@[simp] theorem first_setNext : (p.setNext x z).first l = p.first l := rfl

@[simp] theorem last_setNext : (p.setNext x z).last l = p.last l := rfl

@[simp] theorem first_setPrev : (p.setPrev x z).first l = p.first l := rfl

@[simp] theorem last_setPrev : (p.setPrev x z).last l = p.last l := rfl

@[simp] theorem first_setData : (p.setData x d).first l = p.first l := rfl

@[simp] theorem last_setData : (p.setData x d).last l = p.last l := rfl

@[simp] theorem first_unlink : (p.unlink x).first l = p.first l := rfl

@[simp] theorem last_unlink : (p.unlink x).last l = p.last l := rfl

@[simp] theorem first_setEnds :
    (p.setEnds l e).first k = if k = l then e.first else p.first k := by
  rw [first, ends_setEnds]; split <;> rfl

@[simp] theorem last_setEnds :
    (p.setEnds l e).last k = if k = l then e.last else p.last k := by
  rw [last, ends_setEnds]; split <;> rfl

@[simp] theorem first_setFirst :
    (p.setFirst l z).first k = if k = l then z else p.first k := first_setEnds ..

@[simp] theorem last_setFirst : (p.setFirst l z).last k = p.last k := by
  rw [last, ends_setFirst]; split <;> simp_all [last]

@[simp] theorem first_setLast : (p.setLast l z).first k = p.first k := by
  rw [first, ends_setLast]; split <;> simp_all [first]

@[simp] theorem last_setLast :
    (p.setLast l z).last k = if k = l then z else p.last k := last_setEnds ..

@[simp] theorem first_clear : (p.clear l).first k = if k = l then none else p.first k :=
  first_setEnds ..

@[simp] theorem last_clear : (p.clear l).last k = if k = l then none else p.last k :=
  last_setEnds ..

end Lemmas

/-! ### Positions of a list -/

/-- What comes behind a position of a list: behind a node what follows it, behind the gap the
first node. -/
def after (p : Pool α n m) (l : Fin m) : Option (Fin n) → Option (Fin n)
  | some x => p.next x
  | none => p.first l

/-- What comes in front of a position of a list: in front of a node what precedes it, in front of
the gap the last node. -/
def before (p : Pool α n m) (l : Fin m) : Option (Fin n) → Option (Fin n)
  | some x => p.prev x
  | none => p.last l

/-- The pool with what comes behind a position replaced. -/
def setAfter (p : Pool α n m) (l : Fin m) : Option (Fin n) → Option (Fin n) → Pool α n m
  | some x, y => p.setNext x y
  | none, y => p.setFirst l y

/-- The pool with what comes in front of a position replaced. -/
def setBefore (p : Pool α n m) (l : Fin m) : Option (Fin n) → Option (Fin n) → Pool α n m
  | some x, y => p.setPrev x y
  | none, y => p.setLast l y

section Lemmas

variable (p : Pool α n m) (l : Fin m) (x : Fin n) (y : Option (Fin n))

@[simp] theorem after_some : p.after l (some x) = p.next x := rfl

@[simp] theorem after_none : p.after l none = p.first l := rfl

@[simp] theorem before_some : p.before l (some x) = p.prev x := rfl

@[simp] theorem before_none : p.before l none = p.last l := rfl

@[simp] theorem setAfter_some : p.setAfter l (some x) y = p.setNext x y := rfl

@[simp] theorem setAfter_none : p.setAfter l none y = p.setFirst l y := rfl

@[simp] theorem setBefore_some : p.setBefore l (some x) y = p.setPrev x y := rfl

@[simp] theorem setBefore_none : p.setBefore l none y = p.setLast l y := rfl

end Lemmas

/-! ### What a write at a position does -/

section Lemmas

variable (p : Pool α n m) (l k : Fin m) (x : Fin n) (a b y : Option (Fin n)) (e : Ends n)

@[simp] theorem after_setNext :
    (p.setNext x y).after l a = if a = some x then y else p.after l a := by
  cases a <;> simp

@[simp] theorem before_setNext : (p.setNext x y).before l a = p.before l a := by
  cases a <;> simp

@[simp] theorem after_setPrev : (p.setPrev x y).after l a = p.after l a := by
  cases a <;> simp

@[simp] theorem before_setPrev :
    (p.setPrev x y).before l a = if a = some x then y else p.before l a := by
  cases a <;> simp

@[simp] theorem after_setLast : (p.setLast l y).after k a = p.after k a := by
  cases a <;> simp

@[simp] theorem before_setFirst : (p.setFirst l y).before k a = p.before k a := by
  cases a <;> simp

@[simp] theorem after_setEnds :
    (p.setEnds l e).after k a = if a = none ∧ k = l then e.first else p.after k a := by
  cases a <;> simp

@[simp] theorem before_setEnds :
    (p.setEnds l e).before k a = if a = none ∧ k = l then e.last else p.before k a := by
  cases a <;> simp

@[simp] theorem after_clear :
    (p.clear l).after k a = if a = none ∧ k = l then none else p.after k a := by
  cases a <;> simp

@[simp] theorem before_clear :
    (p.clear l).before k a = if a = none ∧ k = l then none else p.before k a := by
  cases a <;> simp

@[simp] theorem after_unlink :
    (p.unlink x).after l a = if a = some x then none else p.after l a := by
  cases a <;> simp

@[simp] theorem before_unlink :
    (p.unlink x).before l a = if a = some x then none else p.before l a := by
  cases a <;> simp

@[simp] theorem next_setAfter :
    (p.setAfter l a y).next x = if some x = a then y else p.next x := by
  cases a <;> simp [eq_comm]

@[simp] theorem prev_setAfter : (p.setAfter l a y).prev x = p.prev x := by
  cases a <;> simp

@[simp] theorem data_setAfter : (p.setAfter l a y).data x = p.data x := by
  cases a <;> simp

@[simp] theorem first_setAfter :
    (p.setAfter l a y).first k = if a = none ∧ k = l then y else p.first k := by
  cases a <;> simp

@[simp] theorem last_setAfter : (p.setAfter l a y).last k = p.last k := by
  cases a <;> simp

@[simp] theorem prev_setBefore :
    (p.setBefore l a y).prev x = if some x = a then y else p.prev x := by
  cases a <;> simp [eq_comm]

@[simp] theorem next_setBefore : (p.setBefore l a y).next x = p.next x := by
  cases a <;> simp

@[simp] theorem data_setBefore : (p.setBefore l a y).data x = p.data x := by
  cases a <;> simp

@[simp] theorem last_setBefore :
    (p.setBefore l a y).last k = if a = none ∧ k = l then y else p.last k := by
  cases a <;> simp

@[simp] theorem first_setBefore : (p.setBefore l a y).first k = p.first k := by
  cases a <;> simp

@[simp] theorem after_setAfter_self : (p.setAfter l a y).after l a = y := by
  cases a <;> simp

@[simp] theorem before_setBefore_self : (p.setBefore l a y).before l a = y := by
  cases a <;> simp

@[simp] theorem before_setAfter : (p.setAfter l a y).before k b = p.before k b := by
  cases b <;> simp

@[simp] theorem after_setBefore : (p.setBefore l a y).after k b = p.after k b := by
  cases b <;> simp

end Lemmas

end Pool

end SpanChain
