/-
**Sessions that reshape chains.**

A session splits, appends and joins chains through any number of cursors.  A cursor that stands where
another has reshaped the chain is stale: its node may be on another list or on none, and its offset
behind what its node has kept.  As long as no step fails, no byte is lost and every node is accounted
for.

Main definitions:

* `SpanChain.BufferSession.Reshapes` — the rules: steps that reshape chains;
* `SpanChain.BufferSession.Step.used`, `SpanChain.Reply.freed` — the nodes that a step brings to the
  lists and takes off them;
* `SpanChain.BufferSession.Reshaped`, `SpanChain.BufferSession.Conserved` — what is to be shown of one
  step and of a run;
* `SpanChain.BufferSession.Exchanges` — which nodes come and go in a step.

Main results:

* `SpanChain.BufferSession.reshaped_step` — one step;
* `SpanChain.BufferSession.Conserved.of_run` — a run;
* `SpanChain.reshaping_conserves_bytes` — **every state of a run and every step from there**.
-/

import SpanChain.Proofs.Bytes.Conserve
import SpanChain.Proofs.Rules

set_option relaxedAutoImplicit false
set_option autoImplicit false

namespace SpanChain

open scoped BigOperators

variable {α : Type} {n m k : Nat}

/-! ### Nodes that come and go -/

/-- The node that is handed back in an answer. -/
def Reply.freed : Reply α n → Multiset (Fin n)
  | .node (some x) => {x}
  | _ => 0

/-- Whether a node is handed back in an answer. -/
def Reply.hasNode : Reply α n → Bool
  | .node (some _) => true
  | _ => false

/-- Whether the answer is that of a split inside a span. -/
def Reply.isUnaligned : Reply α n → Bool
  | .split .unaligned => true
  | _ => false

theorem Reply.card_freed (r : Reply α n) : r.freed.card = if r.hasNode then 1 else 0 := by
  cases r with
  | node y => cases y <;> rfl
  | _ => rfl

namespace BufferSession

/-- The spare node that a step has used, going by its answer. -/
def Step.used : Step n m k → Reply Span n → Multiset (Fin n)
  | .through _ (.splitAt _ (some e)), .split .unaligned => {e}
  | _, _ => 0

/-! ### One step of a session -/

/-- The steps through a cursor that reshape chains: splits into an empty list, with a spare node that
is on no list, if any, and joining. -/
def ReshapesThrough (s : BufferSession n m k) : CursorStep n m k → Prop
  | .splitAt tail extra =>
    s.pool.members tail = [] ∧ ∀ e ∈ extra, Rows.Unlisted s.pool.members e
  | .joinBack => True
  | _ => False

instance (s : BufferSession n m k) : DecidablePred s.ReshapesThrough
  | .splitAt tail extra =>
    inferInstanceAs (Decidable (s.pool.members tail = [] ∧
      ∀ e ∈ extra, Rows.Unlisted s.pool.members e))
  | .joinBack => inferInstanceAs (Decidable True)
  | .isActive | .node | .offset | .finish | .rest | .remaining | .text | .isBoundTo _ | .advance _
  | .writeByte _ | .readByte | .write _ | .copyInto _ | .copyTo _ _ | .copy _ | .samePlace _ =>
    inferInstanceAs (Decidable False)

/-- The steps that reshape chains: those through a cursor, and appending one list to another, with a
cursor at the seam or without. -/
def Reshapes (s : BufferSession n m k) : Step n m k → Prop
  | .edit e => ∃ l tail, l ≠ tail ∧ e = .append l tail
  | .appendAtSeam l tail _ => l ≠ tail
  | .through _ t => s.ReshapesThrough t
  | _ => False

instance (s : BufferSession n m k) : DecidablePred s.Reshapes
  | .edit e => inferInstanceAs (Decidable (∃ l tail, l ≠ tail ∧ e = .append l tail))
  | .appendAtSeam l tail _ => inferInstanceAs (Decidable (l ≠ tail))
  | .through _ t => inferInstanceAs (Decidable (s.ReshapesThrough t))
  | .query _ | .pushRange _ _ _ | .capacity _ | .chainText _ | .spans _ _ | .build _ _ _ _
  | .renew _ _ | .setSpan _ _ | .described _ | .nodeText _ | .start _ _ | .senseless =>
    inferInstanceAs (Decidable False)

variable {s s' : BufferSession n m k} {t : Step n m k} {slot : Fin k} {c : ByteCursor n m}
  {tail : Fin m} {extra : Option (Fin n)} {o : Outcome Span n (BufferSession n m k)}

/-- What a step that reshapes chains leads to. -/
structure Reshaped (s : BufferSession n m k) (t : Step n m k)
    (o : Outcome Span n (BufferSession n m k)) : Prop where
  /-- No byte is lost, and the nodes are accounted for. -/
  pool : s.pool.Conserves o.state.pool (t.used o.reply) o.reply.freed
  /-- A spare node is used by each split inside a span, and by nothing else. -/
  used : (t.used o.reply).card = if o.reply.isUnaligned then 1 else 0
  /-- A node is handed back by joining alone. -/
  freed : ∀ x, o.reply = .node (some x) → ∃ slot, t = .through slot .joinBack
  /-- No byte is written. -/
  memory : o.state.memory = s.memory

/-- A step that makes no sense changes nothing. -/
theorem reshaped_invalid (h : s.pool.WellFormed) (t : Step n m k) :
    s.Reshaped t (s.answer .invalid) := by
  have hused : t.used (Reply.invalid : Reply Span n) = 0 := by
    unfold Step.used
    split <;> simp_all
  refine ⟨?_, congrArg _ hused, by simp [answer], rfl⟩
  rw [show t.used (s.answer .invalid).reply = 0 from hused]
  exact .refl h

theorem reshaped_splitAt (h : s.pool.WellFormed) (htail : s.pool.members tail = [])
    (hextra : ∀ e ∈ extra, Rows.Unlisted s.pool.members e)
    (ho : s.splitAt slot c tail extra = .ok o) :
    s.Reshaped (.through slot (.splitAt tail extra)) o := by
  obtain ⟨result, hresult, ho⟩ := bind_eq_ok.1 ho
  cases result with
  | error r =>
      obtain rfl := Except.ok.inj ho
      cases extra <;> exact ⟨.refl h, rfl, by simp, rfl⟩
  | ok r =>
      obtain ⟨split, q, c'⟩ := r
      obtain rfl := Except.ok.inj ho
      rcases ByteCursor.conserves_splitAt h htail hextra hresult with
        ⟨rfl, hq⟩ | ⟨e, rfl, rfl, hq⟩
      · cases extra <;> exact ⟨hq, rfl, by simp, rfl⟩
      · exact ⟨hq, rfl, by simp, rfl⟩

theorem reshaped_joinBack (h : s.pool.WellFormed) (ho : s.stepThrough slot c .joinBack = .ok o) :
    s.Reshaped (.through slot .joinBack) o := by
  obtain ⟨⟨x, q, c'⟩, hq, heq⟩ := bind_eq_ok.1 ho
  obtain rfl := Except.ok.inj heq
  have hconserves := ByteCursor.conserves_joinBack h hq
  cases x <;> exact ⟨hconserves, rfl, fun _ _ => ⟨slot, rfl⟩, rfl⟩

/-- **A step that reshapes chains loses no byte**, whatever cursors are in the slots. -/
theorem reshaped_step (h : s.pool.WellFormed) (ht : s.Reshapes t) (ho : s.step t = .ok o) :
    s.Reshaped t o := by
  cases t with
  | edit e =>
      obtain ⟨l, tail, hlt, rfl⟩ := ht
      obtain ⟨⟨r, q⟩, hq, heq⟩ := bind_eq_ok.1 ho
      have hsound : (ListEdit.append l tail : ListEdit n m).isSound = true := decide_eq_true hlt
      rw [ListEdit.apply, if_pos hsound] at hq
      obtain ⟨rfl, rfl⟩ := Prod.mk.inj (Except.ok.inj hq)
      obtain rfl := Except.ok.inj heq
      exact ⟨Pool.conserves_append h hlt, rfl, by simp [withPool], rfl⟩
  | appendAtSeam l tail slot =>
      have hlt : l ≠ tail := ht
      simp only [step, if_neg hlt] at ho
      split at ho
      · obtain rfl := Except.ok.inj ho
        exact ⟨Pool.conserves_append h hlt, rfl, by simp, rfl⟩
      · split at ho
        · obtain rfl := Except.ok.inj ho
          exact ⟨Pool.conserves_append h hlt, rfl, by simp, rfl⟩
        · obtain rfl := Except.ok.inj ho
          exact reshaped_invalid h _
  | through slot t =>
      simp only [step] at ho
      split at ho
      · cases t with
        | splitAt tail extra => exact reshaped_splitAt h ht.1 ht.2 ho
        | joinBack => exact reshaped_joinBack h ho
        | _ => exact ht.elim
      · obtain rfl := Except.ok.inj ho
        exact reshaped_invalid h _
  | _ => exact ht.elim

/-! ### A run -/

/-- What is to be shown of a run from the state `s` to the state `s'`. -/
structure Conserved (s : BufferSession n m k) (steps : List (Step n m k))
    (outcomes : List (Outcome Span n (BufferSession n m k))) (s' : BufferSession n m k) :
    Prop where
  /-- All lists are linked along rows that have no node in common. -/
  wellFormed : s'.pool.WellFormed
  /-- The lists together describe the same addresses, each as often. -/
  described : s'.pool.described = s.pool.described
  /-- The capacities add up to the same number, where they can be told. -/
  capacity : ∀ sizes sizes' : Fin m → Nat, (∀ l, s.pool.capacity l = .ok (sizes l)) →
    (∀ l, s'.pool.capacity l = .ok (sizes' l)) → ∑ l, sizes' l = ∑ l, sizes l
  /-- The nodes on the lists are those at the start, with all spare nodes that were used and without
  all nodes that were handed back. -/
  listed : s'.pool.listed + (outcomes.map fun o => o.reply.freed).sum =
    s.pool.listed + (List.zipWith (fun t o => Step.used t o.reply) steps outcomes).sum
  /-- Their number has grown by the splits inside spans and shrunk by the joins. -/
  count : ∑ l, s'.pool.count l + outcomes.countP (fun o => o.reply.hasNode) =
    ∑ l, s.pool.count l + outcomes.countP (fun o => o.reply.isUnaligned)
  /-- No byte is written. -/
  memory : s'.memory = s.memory

/-- Capacities depend on what is described alone. -/
theorem sum_capacities_eq {p q : Pool Span n m} (h : q.described = p.described)
    (sizes sizes' : Fin m → Nat) (hsizes : ∀ l, p.capacity l = .ok (sizes l))
    (hsizes' : ∀ l, q.capacity l = .ok (sizes' l)) : ∑ l, sizes' l = ∑ l, sizes l := by
  rw [Pool.sum_capacities hsizes, Pool.sum_capacities hsizes', Pool.total_eq_card,
    Pool.total_eq_card, h]

theorem Conserved.refl (h : s.pool.WellFormed) : Conserved s [] [] s :=
  ⟨h, rfl, sum_capacities_eq rfl, rfl, rfl, rfl⟩

/-- A step and then a run. -/
theorem Conserved.cons {steps : List (Step n m k)}
    {outcomes : List (Outcome Span n (BufferSession n m k))} (h : s.Reshaped t o)
    (hrun : Conserved o.state steps outcomes s') : Conserved s (t :: steps) (o :: outcomes) s' := by
  have hdescribed := hrun.described.trans h.pool.described
  refine ⟨hrun.wellFormed, hdescribed, sum_capacities_eq hdescribed, ?_, ?_,
    hrun.memory.trans h.memory⟩
  · rw [List.map_cons, List.sum_cons, List.zipWith_cons_cons, List.sum_cons]
    have hstep := h.pool.listed
    have hrest := hrun.listed
    set freed := (outcomes.map fun o => o.reply.freed).sum
    set used := (List.zipWith (fun t o => Step.used t o.reply) steps outcomes).sum
    calc s'.pool.listed + (o.reply.freed + freed)
        = s'.pool.listed + freed + o.reply.freed := by abel
      _ = o.state.pool.listed + o.reply.freed + used := by rw [hrest]; abel
      _ = s.pool.listed + (t.used o.reply + used) := by rw [hstep]; abel
  · have hstep := congrArg Multiset.card h.pool.listed
    rw [Multiset.card_add, Multiset.card_add, h.used, o.reply.card_freed, Pool.card_listed,
      Pool.card_listed] at hstep
    have hrest := hrun.count
    rw [List.countP_cons, List.countP_cons]
    omega

theorem Conserved.of_run {steps : List (Step n m k)}
    {outcomes : List (Outcome Span n (BufferSession n m k))} (h : s.pool.WellFormed)
    (hrules : Session.KeepsTo BufferSession.step Reshapes s steps)
    (hrun : Session.run BufferSession.step s steps = (outcomes, .ok s')) :
    Conserved s steps outcomes s' := by
  induction steps generalizing s outcomes with
  | nil =>
      obtain ⟨rfl, hlast⟩ := Prod.mk.inj hrun
      obtain rfl := Except.ok.inj hlast
      exact .refl h
  | cons t steps ih =>
      cases ht : s.step t with
      | error e =>
          rw [Session.run_cons_of_error _ ht] at hrun
          obtain ⟨-, hlast⟩ := Prod.mk.inj hrun
          contradiction
      | ok o =>
          rw [Session.run_cons_of_ok _ ht] at hrun
          obtain ⟨rfl, hlast⟩ := Prod.mk.inj hrun
          have hstep := reshaped_step h hrules.1 ht
          exact .cons hstep (ih hstep.pool.wellFormed (hrules.tail ht) (Prod.ext rfl hlast))

/-! ### Which nodes come and go -/

/-- A node leaves the lists only as the one that joining hands back, and comes to them only as the
spare node of a split inside a span. -/
structure Exchanges (s : BufferSession n m k) (t : Step n m k)
    (o : Outcome Span n (BufferSession n m k)) : Prop where
  leaves : ∀ x ∈ s.pool.listed, x ∉ o.state.pool.listed →
    (∃ slot, t = .through slot .joinBack) ∧ o.reply = .node (some x)
  comes : ∀ x ∈ o.state.pool.listed, x ∉ s.pool.listed →
    (∃ slot tail, t = .through slot (.splitAt tail (some x))) ∧ o.reply = .split .unaligned

theorem mem_freed {r : Reply Span n} {x : Fin n} (hx : x ∈ r.freed) : r = .node (some x) := by
  unfold Reply.freed at hx
  split at hx
  · rw [Multiset.mem_singleton.1 hx]
  · exact absurd hx (Multiset.notMem_zero x)

theorem mem_used {r : Reply Span n} {x : Fin n} (hx : x ∈ t.used r) :
    (∃ slot tail, t = .through slot (.splitAt tail (some x))) ∧ r = .split .unaligned := by
  unfold Step.used at hx
  split at hx
  · rw [Multiset.mem_singleton.1 hx]
    exact ⟨⟨_, _, rfl⟩, rfl⟩
  · exact absurd hx (Multiset.notMem_zero x)

theorem Reshaped.exchanges (h : s.Reshaped t o) : s.Exchanges t o := by
  have hlisted := h.pool.listed
  refine ⟨fun x hx hgone => ?_, fun x hx hnew => ?_⟩
  · have hmem : x ∈ o.state.pool.listed + o.reply.freed := by
      rw [hlisted]
      exact Multiset.mem_add.2 (.inl hx)
    have hreply := mem_freed ((Multiset.mem_add.1 hmem).resolve_left hgone)
    exact ⟨h.freed x hreply, hreply⟩
  · have hmem : x ∈ s.pool.listed + t.used o.reply := by
      rw [← hlisted]
      exact Multiset.mem_add.2 (.inl hx)
    exact mem_used ((Multiset.mem_add.1 hmem).resolve_left hnew)

end BufferSession

/-- **Reshaping chains loses no byte**, however many cursors are used and whatever they stand on.  Up
to each state that a run of such steps comes to, all lists together describe the same addresses, and
nodes are accounted for; from there each further step takes and gives nodes only as splits inside
spans and joining do. -/
theorem reshaping_conserves_bytes {s s' : BufferSession n m k}
    {steps : List (BufferSession.Step n m k)}
    {outcomes : List (Outcome Span n (BufferSession n m k))} (h : s.pool.WellFormed)
    (hrules : Session.KeepsTo BufferSession.step BufferSession.Reshapes s steps)
    (hrun : Session.run BufferSession.step s steps = (outcomes, .ok s')) :
    BufferSession.Conserved s steps outcomes s' ∧
      ∀ t o, s'.Reshapes t → s'.step t = .ok o → s'.Exchanges t o := by
  have hconserved := BufferSession.Conserved.of_run h hrules hrun
  refine ⟨hconserved, fun t o ht ho => ?_⟩
  exact (BufferSession.reshaped_step hconserved.wellFormed ht ho).exchanges

/-- Two cursors stand at the same byte; when the first has split there, the second is behind the last
byte of its span and splits off an empty one.  A node that joining hands back is used again. -/
theorem reshaping_conserves_bytes_stale_cursor :
    let pool : Pool Span 6 3 :=
      ⟨#v[⟨⟨some 1, none⟩, ⟨.inMemory 0, 3, by decide⟩⟩,
          ⟨⟨none, some 0⟩, ⟨.inMemory 3, 4, by decide⟩⟩,
          ⟨⟨none, some 1⟩, .empty⟩,
          ⟨⟨none, none⟩, ⟨.inMemory 3, 2, by decide⟩⟩,
          ⟨⟨some 1, some 3⟩, ⟨.inMemory 8, 2, by decide⟩⟩,
          ⟨⟨some 4, some 2⟩, .empty⟩],
        #v[⟨some 0, some 1⟩, ⟨some 3, some 3⟩, ⟨none, none⟩]⟩
    let s : BufferSession 6 3 2 :=
      ⟨pool, .pattern 12 0 1, #v[some ⟨⟨0, some 1⟩, 2⟩, some ⟨⟨0, some 1⟩, 2⟩]⟩
    let steps : List (BufferSession.Step 6 3 2) :=
      [.through 0 (.splitAt 2 (some 4)), .appendAtSeam 1 2 (some 0),
        .through 1 (.splitAt 2 (some 5)), .through 0 .joinBack, .through 1 .joinBack,
        .edit (.append 0 2), .through 0 (.splitAt 2 (some 4))]
    pool.WellFormed ∧ Session.KeepsTo BufferSession.step BufferSession.Reshapes s steps ∧
      ∃ outcomes s', Session.run BufferSession.step s steps = (outcomes, .ok s') ∧
        BufferSession.Conserved s steps outcomes s' ∧
          ∀ t o, s'.Reshapes t → s'.step t = .ok o → s'.Exchanges t o := by
  intro pool s steps
  have hpool : s.pool.WellFormed := by decide
  have hrules : Session.KeepsTo BufferSession.step BufferSession.Reshapes s steps := by
    decide +kernel
  obtain ⟨outcomes, s', hrun⟩ :=
    Session.exists_run_of_isOk
      (by decide +kernel : (Session.run BufferSession.step s steps).2.isOk = true)
  exact ⟨hpool, hrules, outcomes, s', hrun, reshaping_conserves_bytes hpool hrules hrun⟩

end SpanChain
