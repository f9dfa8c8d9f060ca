import Upkeep.Cycle.Call
import Upkeep.Proofs.Program.History

/-!
# A call that runs alone

A call of a cycle that finds the flag down, and is let go on to its end with nothing happening in
between, ends as the cycle does when it runs alone, and leaves the flag down.

* `Process.finish_advance` : running up to the next pause and going on from there is running to the
  end.
* `Call.finish_begin`, `Pool.callTogether_one` : the end of a single call.
* `Pool.callInTurn` : calls made one after another.
-/

namespace Upkeep

variable {σ α : Type}

/-- Lets a process that has given way go on alone to its end. -/
def Progress.finish : Progress σ α → (elapsed : Nat) → σ → (α × Nat) × σ
  | .ended a, elapsed, s => ((a, elapsed), s)
  | .waiting ms rest, elapsed, s => rest.finish (elapsed + ms) s

/-- A process may be run to its end in one go or stop at its next pause. -/
theorem Process.finish_advance (p : Process σ α) (elapsed : Nat) (s : σ) :
    (p.advance s).1.finish elapsed (p.advance s).2 = p.finish elapsed s := by
  induction p generalizing elapsed s with
  | done a => rfl
  | look next ih => exact ih s elapsed s
  | become s' next ih => exact ih elapsed s'
  | pause ms next ih => rfl

variable (e : Surroundings σ) (policy : DemotionPolicy)

/-- A call that is held on to ends as its process does, and lets the flag down. -/
theorem Call.finish_hold (p : Progress σ CycleOutcome) (s : σ) :
    (hold (p, s)).1.finish (hold (p, s)).2 = (some (p.finish 0 s).1, ⟨false, (p.finish 0 s).2⟩) := by
  cases p with
  | ended outcome => rfl
  | waiting ms rest => simp [hold, Call.finish, Progress.finish]

/-- **A call that finds the flag down ends as the cycle does**, and lets the flag down. -/
theorem Call.finish_begin (s : σ) :
    (begin e policy ⟨false, s⟩).1.finish (begin e policy ⟨false, s⟩).2 =
      (some (((Cycle.body e.home policy).within e).finish 0 s).1,
        ⟨false, (((Cycle.body e.home policy).within e).finish 0 s).2⟩) := by
  rw [← Process.finish_advance]
  exact finish_hold _ _

/-- **A single call** that finds the flag down ends as the cycle does, and lets the flag down. -/
theorem Pool.callTogether_one (s : σ) :
    callTogether e policy 1 ⟨false, s⟩ =
      (([((Cycle.body e.home policy).outcome e s).1],
          (((Cycle.body e.home policy).within e).finish 0 s).1.2),
        ⟨false, ((Cycle.body e.home policy).outcome e s).2⟩) := by
  have hcall : callTogether e policy 1 ⟨false, s⟩ =
      let ended := finishAll [(Call.begin e policy ⟨false, s⟩).1] (Call.begin e policy ⟨false, s⟩).2
      ((ended.1.map Prod.fst, ended.1.foldl (fun t r => max t r.2) 0), ended.2) := rfl
  rw [hcall, ← Program.finish_within _ 0 s]
  simp [finishAll, Call.finish_begin]

/-- What is left of calls made one after another, each of them let go on alone to its end. -/
def Pool.callInTurn : Nat → Shared σ → Shared σ
  | 0, s => s
  | n + 1, s => (callTogether e policy 1 (callInTurn n s)).2

/-- **Calls made one after another find the flag down.** -/
theorem Pool.callInTurn_eq (n : Nat) (s : σ) :
    callInTurn e policy n ⟨false, s⟩ = ⟨false, (callInTurn e policy n ⟨false, s⟩).world⟩ := by
  induction n with
  | zero => rfl
  | succ n ih => rw [callInTurn, ih, callTogether_one]

/-- Each call begins where the cycle before it ended. -/
theorem Pool.world_callInTurn_succ (n : Nat) (s : σ) :
    (callInTurn e policy (n + 1) ⟨false, s⟩).world = ((Cycle.body e.home policy).outcome e
      (callInTurn e policy n ⟨false, s⟩).world).2 := by
  rw [callInTurn, callInTurn_eq, callTogether_one]

end Upkeep
