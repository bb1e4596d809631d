/-
**Runs that keep to rules.**

The rules of a session say which steps the caller may take in which state.  A run keeps to them if
each of its steps is permitted in the state that it is taken in; behind a fault nothing is asked.

Main definitions:

* `SpanChain.Session.KeepsTo` — a run keeps to rules;
* `SpanChain.Session.EachStep` — what each step of a run does;
* `SpanChain.Session.Since` — something happens in a run, and from then on it keeps to rules.

Main results:

* `SpanChain.Session.run_invariant` — what every permitted step preserves holds in every state of a
  run, whether or not it ends in a fault;
* `SpanChain.Session.run_succeeds` — where no permitted step fails, no run that keeps to the rules
  does;
* `SpanChain.Session.run_since` — what holds once something has happened holds at the end.
-/

import SpanChain.Session.Reply

set_option relaxedAutoImplicit false
set_option autoImplicit false

namespace SpanChain

namespace Session

variable {α σ τ : Type} {n : Nat} {step : σ → τ → Except Fault (Outcome α n σ)}
  {rules : σ → τ → Prop}

/-- Every step of a run is permitted in the state that it is taken in. -/
def KeepsTo (step : σ → τ → Except Fault (Outcome α n σ)) (rules : σ → τ → Prop) :
    σ → List τ → Prop
  | _, [] => True
  | s, t :: steps =>
    rules s t ∧
      match step s t with
      | .ok o => KeepsTo step rules o.state steps
      | .error _ => True

instance decidableKeepsTo (step : σ → τ → Except Fault (Outcome α n σ)) (rules : σ → τ → Prop)
    [∀ s t, Decidable (rules s t)] :
    (s : σ) → (steps : List τ) → Decidable (KeepsTo step rules s steps)
  | _, [] => inferInstanceAs (Decidable True)
  | s, t :: steps =>
    have : Decidable (match step s t with
      | .ok o => KeepsTo step rules o.state steps
      | .error _ => True) :=
      match step s t with
      | .ok o => decidableKeepsTo step rules o.state steps
      | .error _ => inferInstanceAs (Decidable True)
    inferInstanceAs (Decidable (rules s t ∧ _))

/-- A run without a fault has come to a state. -/
theorem exists_run_of_isOk {s : σ} {steps : List τ} (h : (run step s steps).2.isOk = true) :
    ∃ outcomes s', run step s steps = (outcomes, .ok s') := by
  cases hlast : (run step s steps).2 with
  | error e =>
      rw [hlast] at h
      exact absurd h Bool.false_ne_true
  | ok s' => exact ⟨_, s', Prod.ext rfl hlast⟩

theorem KeepsTo.tail {s : σ} {t : τ} {steps : List τ} {o : Outcome α n σ}
    (h : KeepsTo step rules s (t :: steps)) (ho : step s t = .ok o) :
    KeepsTo step rules o.state steps := by
  have h' := h.2
  rw [ho] at h'
  exact h'

/-- Rules that permit a step in every state. -/
theorem KeepsTo.of_forall {s : σ} {steps : List τ} (h : ∀ t ∈ steps, ∀ s, rules s t) :
    KeepsTo step rules s steps := by
  induction steps generalizing s with
  | nil => trivial
  | cons t steps ih =>
      refine ⟨h t List.mem_cons_self s, ?_⟩
      cases step s t with
      | error e => trivial
      | ok o => exact ih fun u hu => h u (List.mem_cons_of_mem t hu)

/-- A run that keeps to two sets of rules keeps to both at once. -/
theorem KeepsTo.and {rules' : σ → τ → Prop} {s : σ} {steps : List τ}
    (h : KeepsTo step rules s steps) (h' : KeepsTo step rules' s steps) :
    KeepsTo step (fun s t => rules s t ∧ rules' s t) s steps := by
  induction steps generalizing s with
  | nil => trivial
  | cons t steps ih =>
      refine ⟨⟨h.1, h'.1⟩, ?_⟩
      cases ht : step s t with
      | error e => trivial
      | ok o => exact ih (h.tail ht) (h'.tail ht)

/-- **An invariant of the permitted steps is one of the runs that keep to the rules.** -/
theorem run_invariant {inv : σ → Prop}
    (hstep : ∀ s t o, inv s → rules s t → step s t = .ok o → inv o.state) {s : σ}
    {steps : List τ} (hs : inv s) (h : KeepsTo step rules s steps) :
    (∀ o ∈ (run step s steps).1, inv o.state) ∧
      ∀ final, (run step s steps).2 = .ok final → inv final := by
  induction steps generalizing s with
  | nil =>
      refine ⟨by simp, ?_⟩
      rintro final ⟨⟩
      exact hs
  | cons t steps ih =>
      cases ht : step s t with
      | error e =>
          rw [run_cons_of_error step ht]
          exact ⟨by simp, by simp⟩
      | ok o =>
          have ho := hstep s t o hs h.1 ht
          obtain ⟨hall, hfinal⟩ := ih ho (h.tail ht)
          rw [run_cons_of_ok step ht]
          refine ⟨fun o' ho' => ?_, hfinal⟩
          rcases List.mem_cons.1 ho' with rfl | hmem
          · exact ho
          · exact hall o' hmem

/-- Each step of a row has been carried out, and its outcome is related to the state before it. -/
def EachStep (rel : σ → τ → Outcome α n σ → Prop) : σ → List τ → List (Outcome α n σ) → Prop
  | _, [], [] => True
  | s, t :: steps, o :: outcomes => rel s t o ∧ EachStep rel o.state steps outcomes
  | _, _, _ => False

/-- **A run in which no permitted step fails comes to its end**, and what each permitted step does is
done by each step of the run. -/
theorem run_succeeds {inv : σ → Prop} {rel : σ → τ → Outcome α n σ → Prop}
    (hstep : ∀ s t, inv s → rules s t → ∃ o, step s t = .ok o ∧ inv o.state ∧ rel s t o) {s : σ}
    {steps : List τ} (hs : inv s) (h : KeepsTo step rules s steps) :
    ∃ outcomes final, run step s steps = (outcomes, .ok final) ∧ EachStep rel s steps outcomes ∧
      inv final := by
  induction steps generalizing s with
  | nil => exact ⟨[], s, rfl, trivial, hs⟩
  | cons t steps ih =>
      obtain ⟨o, ho, hinv, hrel⟩ := hstep s t hs h.1
      obtain ⟨outcomes, final, hrun, heach, hfinal⟩ := ih hinv (h.tail ho)
      exact ⟨o :: outcomes, final, run_cons_of_run step ho hrun, ⟨hrel, heach⟩, hfinal⟩

/-- At some step of a run the event happens, and every step behind it is permitted. -/
def Since (step : σ → τ → Except Fault (Outcome α n σ)) (event later : σ → τ → Prop) :
    σ → List τ → Prop
  | _, [] => False
  | s, t :: steps =>
    match step s t with
    | .ok o => event s t ∧ KeepsTo step later o.state steps ∨ Since step event later o.state steps
    | .error _ => False

instance decidableSince (step : σ → τ → Except Fault (Outcome α n σ)) (event later : σ → τ → Prop)
    [∀ s t, Decidable (event s t)] [∀ s t, Decidable (later s t)] :
    (s : σ) → (steps : List τ) → Decidable (Since step event later s steps)
  | _, [] => inferInstanceAs (Decidable False)
  | s, t :: steps =>
    match h : step s t with
    | .ok o =>
      have := decidableSince step event later o.state steps
      decidable_of_iff
        (event s t ∧ KeepsTo step later o.state steps ∨ Since step event later o.state steps)
        (by rw [Since, h])
    | .error _ => .isFalse (by rw [Since, h]; exact id)

/-- **What the event brings about and the steps behind it keep holds at the end of the run.** -/
theorem run_since {inv after : σ → Prop} {event later : σ → τ → Prop}
    (hinv : ∀ s t o, inv s → rules s t → step s t = .ok o → inv o.state)
    (hevent : ∀ s t o, inv s → rules s t → event s t → step s t = .ok o → after o.state)
    (hlater : ∀ s t o, inv s → after s → rules s t → later s t → step s t = .ok o → after o.state)
    {s final : σ} {steps : List τ} (hs : inv s) (hrules : KeepsTo step rules s steps)
    (h : Since step event later s steps) (hrun : (run step s steps).2 = .ok final) :
    after final := by
  induction steps generalizing s with
  | nil => exact h.elim
  | cons t steps ih =>
      cases ht : step s t with
      | error e =>
          rw [Since, ht] at h
          exact h.elim
      | ok o =>
          have ho := hinv s t o hs hrules.1 ht
          rw [run_cons_of_ok step ht] at hrun
          rw [Since, ht] at h
          rcases h with ⟨hnow, hbehind⟩ | hrest
          · have hboth := (hrules.tail ht).and hbehind
            have hkeep : ∀ s t o, inv s ∧ after s → rules s t ∧ later s t → step s t = .ok o →
                inv o.state ∧ after o.state := fun s t o hi hr hok =>
              ⟨hinv s t o hi.1 hr.1 hok, hlater s t o hi.1 hi.2 hr.1 hr.2 hok⟩
            exact ((run_invariant hkeep ⟨ho, hevent s t o hs hrules.1 hnow ht⟩ hboth).2 final
              hrun).2
          · exact ih ho (hrules.tail ht) hrest hrun

end Session

end SpanChain
