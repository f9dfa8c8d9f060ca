import Upkeep.Cycle.Call
import Upkeep.Settings

/-!
# The schedule of cycles

Once started, the schedule lets a first delay pass and then ticks at equal intervals, until it
is cancelled.  Each tick calls the cycle, and the call goes on beside the schedule: a slow
cycle delays no tick, and the tick that comes while it is running is passed over.  A call that
is running when the schedule is cancelled goes on to its end.

A `Timeline` holds the schedule, the calls that wait, and the world, at one instant of
simulated time.  The task of the schedule runs only while time is let pass or its end is
awaited, so a cancellation is seen at the next of these.
-/

namespace Upkeep

/-- Where the task of the schedule stands. -/
inductive ScheduleTask
  /-- It was not started. -/
  | absent
  /-- Cycles are disabled, and the task waits to be cancelled. -/
  | disabled
  /-- It was started and has not run yet. -/
  | started
  /-- It lets the first delay pass, which ends at an instant. -/
  | delaying (until_ : Nat)
  /-- It ticks next at an instant. -/
  | ticking (next : Nat)
  /-- It has ended. -/
  | stopped
  /-- It crashed, because there is no time between ticks. -/
  | crashed
  deriving Repr, DecidableEq

/-- What does not change while a schedule runs. -/
structure SchedulePlan (σ : Type) where
  /-- What answers the requests of the checks. -/
  surroundings : Surroundings σ
  /-- The settings of the loop. -/
  health : HealthSettings
  /-- The delay before the first tick, in milliseconds. -/
  firstDelayMs : Nat

/-- The middle of the range, from zero up to the interval, from which first delays are drawn. -/
def HealthSettings.middleDelayMs (h : HealthSettings) : Nat := h.checkIntervalMs / 2

/-- A schedule at one instant. -/
structure Timeline (σ : Type) where
  /-- The instant, in milliseconds. -/
  now : Nat := 0
  /-- Whether the schedule was cancelled. -/
  cancelled : Bool := false
  /-- The task of the schedule. -/
  task : ScheduleTask := .absent
  /-- The calls that wait, each with the instant at which it goes on. -/
  waiting : List (Nat × Process σ CycleOutcome) := []
  /-- The flag and the world. -/
  shared : Shared σ

namespace Timeline

variable {σ : Type} (plan : SchedulePlan σ)

/-- Puts a line on record. -/
def report (r : Report) (t : Timeline σ) : Timeline σ :=
  { t with shared.world := plan.surroundings.note (.report r) t.shared.world }

/-- Starts the schedule. -/
def start (t : Timeline σ) : Timeline σ :=
  if plan.health.enabled then
    { t.report plan (.scheduleStarted plan.surroundings.home plan.health.checkIntervalMs
        plan.health.heartbeatTimeoutMs plan.health.canOfflineServer) with task := .started }
  else { t.report plan .scheduleDisabled with task := .disabled }

/-- Cancels the schedule. -/
def cancel (t : Timeline σ) : Timeline σ := { t with cancelled := true }

/-- Lets the task of the schedule run at the present instant. -/
def poll (t : Timeline σ) : Timeline σ :=
  match t.task with
  | .absent | .stopped | .crashed => t
  | .disabled | .delaying _ => if t.cancelled then { t with task := .stopped } else t
  | .started =>
    if t.cancelled then { t with task := .stopped }
    else if plan.health.checkIntervalMs = 0 then { t with task := .crashed }
    else { t with task := .delaying (t.now + plan.firstDelayMs) }
  | .ticking _ =>
    if t.cancelled then { t.report plan .scheduleEnded with task := .stopped } else t

/-- Lets the waiting calls go on, one after another, through every pause that ends by `limit`. -/
def carryCalls (limit : Nat) :
    List (Nat × Process σ CycleOutcome) → Shared σ →
      List (Nat × Process σ CycleOutcome) × Shared σ
  | [], s => ([], s)
  | (wake, rest) :: calls, s =>
    if wake ≤ limit then
      match Call.hold (rest.carry limit wake s.world) with
      | (.running wake rest, s) =>
        let (calls, s) := carryCalls limit calls s
        ((wake, rest) :: calls, s)
      | (_, s) => carryCalls limit calls s
    else
      let (calls, s) := carryCalls limit calls s
      ((wake, rest) :: calls, s)

/-- Lets time pass up to `limit` for the calls that wait. -/
def carry (limit : Nat) (t : Timeline σ) : Timeline σ :=
  let (waiting, shared) := carryCalls limit t.waiting t.shared
  { t with now := limit, waiting := waiting, shared := shared }

/-- The tick at an instant: the calls that wait go on up to it, and a new call begins. -/
def tick (at_ : Nat) (t : Timeline σ) : Timeline σ :=
  let t := t.carry at_
  let t := { t with task := .ticking (at_ + plan.health.checkIntervalMs) }
  match Call.begin plan.surroundings plan.health.policy t.shared with
  | (.running ms rest, shared) =>
    { t with waiting := t.waiting ++ [(at_ + ms, rest)], shared := shared }
  | (_, shared) => { t with shared := shared }

/-- The ticks from an instant on. -/
def ticks : (count : Nat) → (at_ : Nat) → Timeline σ → Timeline σ
  | 0, _, t => t
  | count + 1, at_, t => ticks count (at_ + plan.health.checkIntervalMs) (t.tick plan at_)

/-- How many ticks, the first at `next`, fall on instants up to `limit`. -/
def tickCount (next interval limit : Nat) : Nat :=
  if next ≤ limit then (limit - next) / interval + 1 else 0

/-- Lets a time pass, in milliseconds. -/
def sleep (ms : Nat) (t : Timeline σ) : Timeline σ :=
  let limit := t.now + ms
  let t := t.poll plan
  match t.task with
  | .delaying next | .ticking next =>
    (t.ticks plan (tickCount next plan.health.checkIntervalMs limit) next).carry limit
  | _ => t.carry limit

/-- Awaits the end of the schedule: whether it ended as it should, if it ends at all. -/
def join (t : Timeline σ) : Option Bool × Timeline σ :=
  let t := t.poll plan
  match t.task with
  | .stopped => (some true, t)
  | .crashed => (some false, t)
  | _ => (none, t)

end Timeline

end Upkeep
