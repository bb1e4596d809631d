/-
**Sessions: answers and runs.**

A session is a state and a row of steps.  Every step that can be carried out is answered and gives
the next state.  A step that makes no sense is answered as invalid and changes nothing; a fault
ends the session, and no state is left.

Main definitions:

* `SpanChain.Reply` — the answer to a step;
* `SpanChain.Outcome` — the answer together with the next state;
* `SpanChain.Session.run` — the outcomes of a row of steps, up to a fault.

Main results:

* `SpanChain.Session.run_cons_of_run`, `SpanChain.Session.run_cons_of_error` — a run goes on from the
  state that its first step leads to, and ends at a fault.
-/

import SpanChain.Buffer.Reshape

set_option relaxedAutoImplicit false
set_option autoImplicit false

namespace SpanChain

/-- The answer to a step, where nodes carry data of type `α`. -/
inductive Reply (α : Type) (n : Nat) where
  /-- The step was carried out and has no value. -/
  | done
  /-- The step makes no sense. -/
  | invalid
  | refused (reason : Refusal)
  | flag (value : Bool)
  /-- A number of nodes or bytes. -/
  | size (value : Nat)
  | node (value : Option (Fin n))
  /-- Nodes, each of which may be missing. -/
  | nodes (values : List (Option (Fin n)))
  | datum (value : α)
  /-- What several nodes carry, each of which may be missing. -/
  | data (values : List (Option α))
  | links (value : Link n)
  /-- A copy of a pair of links and the pair itself, changed since. -/
  | linkPair (copy changed : Link n)
  | text (value : String)
  /-- What a node describes. -/
  | described (span : Span)
  | byte (value : Option UInt8)
  /-- A number of bytes written, and the memory with them. -/
  | wrote (count : Nat) (memory : Memory)
  /-- A number of bytes read, and the list that they were read into. -/
  | read (count : Nat) (bytes : List UInt8)
  | split (value : Split n)

/-- What a step leads to: its answer, the events on the way and the next state. -/
structure Outcome (α : Type) (n : Nat) (σ : Type) where
  reply : Reply α n
  state : σ
  /-- What was reported during the step. -/
  events : List (Event n) := []

namespace Outcome

variable {α σ τ : Type} {n : Nat}

/-- The outcome with another view of its state. -/
def map (f : σ → τ) (o : Outcome α n σ) : Outcome α n τ := ⟨o.reply, f o.state, o.events⟩

end Outcome

namespace Session

variable {α σ τ : Type} {n : Nat}

/-- The outcomes of a row of steps in order, and the fault that ended it, if any. -/
def run (step : σ → τ → Except Fault (Outcome α n σ)) (s : σ) :
    List τ → List (Outcome α n σ) × Except Fault σ
  | [] => ([], .ok s)
  | t :: steps =>
    match step s t with
    | .error e => ([], .error e)
    | .ok o =>
      let (rest, last) := run step o.state steps
      (o :: rest, last)

variable (step : σ → τ → Except Fault (Outcome α n σ))

@[simp] theorem run_nil (s : σ) : run step s [] = ([], .ok s) := rfl

/-- A step that is carried out is followed by the run of the others. -/
theorem run_cons_of_ok {s : σ} {t : τ} {o : Outcome α n σ} (h : step s t = .ok o)
    (steps : List τ) :
    run step s (t :: steps) = (o :: (run step o.state steps).1, (run step o.state steps).2) := by
  rw [run, h]

theorem run_cons_of_run {s : σ} {t : τ} {o : Outcome α n σ} {steps : List τ}
    {outcomes : List (Outcome α n σ)} {last : Except Fault σ} (h : step s t = .ok o)
    (hrun : run step o.state steps = (outcomes, last)) :
    run step s (t :: steps) = (o :: outcomes, last) := by
  rw [run_cons_of_ok step h, hrun]

/-- A fault ends the run. -/
theorem run_cons_of_error {s : σ} {t : τ} {e : Fault} (h : step s t = .error e)
    (steps : List τ) : run step s (t :: steps) = ([], .error e) := by
  rw [run, h]

end Session

end SpanChain
