import Upkeep.Proofs.Process.Guarantee

/-!
# When a process ends

`Process.EndsAt R Q` says of a process, started after some time in a given state, that it ends with a
value, after a time and in a state of which `Q` holds, provided that whatever happens during a pause
is admitted by `R`.

* `Process.endsAt_bind` : a sequence is judged by judging its second half after its first.
* `Process.EndsAt.advance` : the judgement survives the run up to the next pause.
* `Process.EndsAt.finish` : a process that runs alone ends as it was judged to.
-/

namespace Upkeep

variable {σ α β : Type}

/-- After some time a process ends with a value, a total time and a state of which `Q` holds, if `R`
admits what others do. -/
def Process.EndsAt (R : σ → σ → Prop) (Q : α → Nat → σ → Prop) : Process σ α → Nat → σ → Prop
  | done a, elapsed, s => Q a elapsed s
  | look next, elapsed, s => (next s).EndsAt R Q elapsed s
  | become s' next, elapsed, _ => next.EndsAt R Q elapsed s'
  | pause ms next, elapsed, s => ∀ s', R s s' → next.EndsAt R Q (elapsed + ms) s'

/-- The same judgement on where a process stands when it gives way. -/
def Progress.EndsAt (R : σ → σ → Prop) (Q : α → Nat → σ → Prop) :
    Progress σ α → Nat → σ → Prop
  | .ended a, elapsed, s => Q a elapsed s
  | .waiting ms rest, elapsed, s => ∀ s', R s s' → rest.EndsAt R Q (elapsed + ms) s'

namespace Process

variable {R R' : σ → σ → Prop} {Q Q' : α → Nat → σ → Prop} {elapsed : Nat} {s : σ}

theorem endsAt_bind {p : Process σ α} {f : α → Process σ β} {Q : β → Nat → σ → Prop} :
    (p >>= f).EndsAt R Q elapsed s ↔
      p.EndsAt R (fun a elapsed' s' => (f a).EndsAt R Q elapsed' s') elapsed s := by
  induction p generalizing elapsed s with
  | done a => exact Iff.rfl
  | look next ih => exact ih s
  | become s' next ih => exact ih
  | pause ms next ih => exact forall₂_congr fun _ _ => ih

theorem EndsAt.mono {p : Process σ α} (h : p.EndsAt R Q elapsed s)
    (hR : ∀ s s', R' s s' → R s s')
    (hQ : ∀ a elapsed' s', Q a elapsed' s' → Q' a elapsed' s') : p.EndsAt R' Q' elapsed s := by
  induction p generalizing elapsed s with
  | done a => exact hQ a elapsed s h
  | look next ih => exact ih s h
  | become s' next ih => exact ih h
  | pause ms next ih => exact fun s' hs => ih (h s' (hR s s' hs))

theorem endsAt_update {f : σ → α × σ} :
    (update f).EndsAt R Q elapsed s ↔ Q (f s).1 elapsed (f s).2 := Iff.rfl

/-- A wait takes its time, and no wait is no pause. -/
theorem endsAt_wait {ms : Nat} {Q : Unit → Nat → σ → Prop} (hnow : ms = 0 → Q () elapsed s)
    (hlater : ∀ s', R s s' → Q () (elapsed + ms) s') : (wait ms).EndsAt R Q elapsed s := by
  unfold wait
  split
  · rename_i hms
    exact hnow hms
  · exact hlater

/-- A process that begins later ends later by as much. -/
theorem EndsAt.shift {p : Process σ α} (h : p.EndsAt R Q elapsed s) (start : Nat) :
    p.EndsAt R (fun a t s' => ∃ t', t = start + t' ∧ Q a t' s') (start + elapsed) s := by
  induction p generalizing elapsed s with
  | done a => exact ⟨elapsed, rfl, h⟩
  | look next ih => exact ih s h
  | become s' next ih => exact ih h
  | pause ms next ih =>
    intro s' hs
    rw [Nat.add_assoc]
    exact ih (h s' hs)

/-- Up to the next pause no time passes. -/
theorem EndsAt.advance {p : Process σ α} (h : p.EndsAt R Q elapsed s) :
    (p.advance s).1.EndsAt R Q elapsed (p.advance s).2 := by
  induction p generalizing s with
  | done a => exact h
  | look next ih => exact ih s h
  | become s' next ih => exact ih h
  | pause ms next ih => exact h

/-- **A process that runs alone ends as it was judged to.** -/
theorem EndsAt.finish {p : Process σ α} (h : p.EndsAt R Q elapsed s) (hR : ∀ s, R s s) :
    Q (p.finish elapsed s).1.1 (p.finish elapsed s).1.2 (p.finish elapsed s).2 := by
  induction p generalizing elapsed s with
  | done a => exact h
  | look next ih => exact ih s h
  | become s' next ih => exact ih h
  | pause ms next ih => exact ih (h s (hR s))

end Process

end Upkeep
