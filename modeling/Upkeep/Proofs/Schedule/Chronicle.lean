import Mathlib.Data.List.Basic
import Upkeep.Proofs.Schedule.Carrying

/-!
# The runs that the ticks of a schedule lead to

A timeline does not keep what has happened on it.  A `Chronicle` is a timeline beside which the runs
are written down that its ticks have led to: when each of them began, and how and when it ended.

* `Chronicle.timeline_pass` : writing down changes nothing.
* `Chronicle.map_tick_ticks` : the instants that are written down of ticks that follow each other.
* `Chronicle.Punctual` : the ticks so far are those that the plan names, up to the present instant.
* `Chronicle.Punctual.pass` : so it is however time passes.
-/

namespace Upkeep

variable {σ : Type}

/-- A call of the cycle that a tick led to. -/
structure Run where
  /-- The instant of the tick. -/
  tick : Nat
  /-- How and when the call ended, if it has. -/
  ended? : Option (CycleOutcome × Nat)
  deriving Repr, DecidableEq

namespace Run

/-- A call at the instant at which it begins. -/
def ofCall (instant : Nat) : Call σ → Run
  | .ended outcome => ⟨instant, some (outcome, instant)⟩
  | .fresh | .running .. => ⟨instant, none⟩

/-- Whether the call is still in progress. -/
def isOpen (r : Run) : Bool := r.ended?.isNone

/-- Whether the call passed over. -/
def isSkipped (r : Run) : Bool := r.ended?.map Prod.fst = some .skipped

/-- Whether the call had ended by an instant. -/
def endedBy (instant : Nat) (r : Run) : Bool := r.ended?.any fun ended => ended.2 ≤ instant

/-- Writes down how a call that was in progress has ended, if it has. -/
def settle (ending? : Option (CycleOutcome × Nat)) (r : Run) : Run :=
  { r with ended? := r.ended?.or ending? }

@[simp] theorem tick_ofCall (instant : Nat) (c : Call σ) : (ofCall instant c).tick = instant := by
  cases c <;> rfl

@[simp] theorem tick_settle (ending? : Option (CycleOutcome × Nat)) (r : Run) :
    (r.settle ending?).tick = r.tick := rfl

@[simp] theorem settle_none : settle none = id := by
  funext r
  cases r
  simp [settle]

end Run

/-- How and when the call that waits will end, if it does so by an instant and nothing else happens
until then. -/
def Timeline.ending? (limit : Nat) (t : Timeline σ) : Option (CycleOutcome × Nat) :=
  match t.waiting with
  | [] => none
  | (wake, rest) :: _ =>
    let ended := (rest.finish wake t.shared.world).1
    if ended.2 ≤ limit then some ended else none

namespace SchedulePlan

variable {plan : SchedulePlan σ}

/-- The instant of a tick, counted from zero, of a schedule that was started at `start`. -/
def instant (plan : SchedulePlan σ) (start k : Nat) : Nat :=
  start + plan.firstDelayMs + k * plan.health.checkIntervalMs

theorem instant_add (start k i : Nat) :
    plan.instant start (k + i) = plan.instant start k + i * plan.health.checkIntervalMs := by
  simp only [instant, Nat.add_mul, Nat.add_assoc]

theorem instant_succ (start k : Nat) :
    plan.instant start (k + 1) = plan.instant start k + plan.health.checkIntervalMs := by
  rw [instant_add, Nat.one_mul]

theorem le_instant (start k : Nat) : start ≤ plan.instant start k := by
  rw [instant, Nat.add_assoc]
  exact Nat.le_add_right start _

/-- Ticks come one after another. -/
theorem instant_lt_iff (hinterval : 0 < plan.health.checkIntervalMs) {start k k' : Nat} :
    plan.instant start k < plan.instant start k' ↔ k < k' := by
  rw [instant, instant, Nat.add_lt_add_iff_left, Nat.mul_lt_mul_right hinterval]

end SchedulePlan

/-- The instant of the next tick, if there is one. -/
def ScheduleTask.next? : ScheduleTask → Option Nat
  | .delaying next | .ticking next => some next
  | .absent | .disabled | .started | .stopped | .crashed => none

namespace Timeline

variable (plan : SchedulePlan σ)

theorem sleep_eq (ms : Nat) (t : Timeline σ) :
    t.sleep plan ms =
      match (t.poll plan).task.next? with
      | some next =>
        ((t.poll plan).ticks plan
          (tickCount next plan.health.checkIntervalMs (t.now + ms)) next).carry (t.now + ms)
      | none => (t.poll plan).carry (t.now + ms) := by
  simp only [sleep]
  cases (t.poll plan).task <;> rfl

theorem now_sleep (ms : Nat) (t : Timeline σ) : (t.sleep plan ms).now = t.now + ms := by
  simp only [sleep]
  split <;> rfl

/-- The ticks that are counted are those up to the limit. -/
theorem lt_tickCount {next interval limit : Nat} (hinterval : 0 < interval) {i : Nat} :
    i < tickCount next interval limit ↔ next + i * interval ≤ limit := by
  rw [tickCount]
  split
  · rw [Nat.lt_succ_iff, Nat.le_div_iff_mul_le hinterval]
    omega
  · omega

@[simp] theorem cancelled_carry (limit : Nat) (t : Timeline σ) :
    (t.carry limit).cancelled = t.cancelled := rfl

theorem cancelled_tick (at_ : Nat) (t : Timeline σ) :
    (t.tick plan at_).cancelled = t.cancelled := by
  simp only [tick]
  split <;> rfl

theorem cancelled_ticks (count at_ : Nat) (t : Timeline σ) :
    (t.ticks plan count at_).cancelled = t.cancelled := by
  induction count generalizing at_ t with
  | zero => rfl
  | succ count ih => rw [ticks, ih, cancelled_tick]

/-- A time passes, and then others change the world. -/
def stretch (t : Timeline σ) (a : Nat × (σ → σ)) : Timeline σ :=
  let t := t.sleep plan a.1
  { t with shared.world := a.2 t.shared.world }

/-- Stretches of time pass. -/
def pass (stretches : List (Nat × (σ → σ))) (t : Timeline σ) : Timeline σ :=
  stretches.foldl (stretch plan) t

end Timeline

/-- A timeline, and the runs that its ticks have led to. -/
structure Chronicle (σ : Type) where
  /-- The timeline. -/
  timeline : Timeline σ
  /-- The runs, in the order of their ticks. -/
  runs : List Run := []

namespace Chronicle

variable (plan : SchedulePlan σ)

/-- Lets time pass up to `limit` for the calls that wait. -/
def carry (limit : Nat) (c : Chronicle σ) : Chronicle σ :=
  ⟨c.timeline.carry limit, c.runs.map (Run.settle (c.timeline.ending? limit))⟩

/-- The tick at an instant leads to one run. -/
def tick (at_ : Nat) (c : Chronicle σ) : Chronicle σ :=
  let call := (Call.begin plan.surroundings plan.health.policy (c.carry at_).timeline.shared).1
  ⟨c.timeline.tick plan at_, (c.carry at_).runs ++ [.ofCall at_ call]⟩

/-- The ticks from an instant on. -/
def ticks : (count : Nat) → (at_ : Nat) → Chronicle σ → Chronicle σ
  | 0, _, c => c
  | count + 1, at_, c => ticks count (at_ + plan.health.checkIntervalMs) (c.tick plan at_)

/-- Lets the task of the schedule run at the present instant. -/
def poll (c : Chronicle σ) : Chronicle σ := { c with timeline := c.timeline.poll plan }

/-- Lets a time pass, in milliseconds. -/
def sleep (ms : Nat) (c : Chronicle σ) : Chronicle σ :=
  let limit := c.timeline.now + ms
  let c := c.poll plan
  match c.timeline.task.next? with
  | some next =>
    (c.ticks plan (Timeline.tickCount next plan.health.checkIntervalMs limit) next).carry limit
  | none => c.carry limit

/-- A time passes, and then others change the world. -/
def stretch (c : Chronicle σ) (a : Nat × (σ → σ)) : Chronicle σ :=
  let c := c.sleep plan a.1
  { c with timeline.shared.world := a.2 c.timeline.shared.world }

/-- Stretches of time pass. -/
def pass (stretches : List (Nat × (σ → σ))) (c : Chronicle σ) : Chronicle σ :=
  stretches.foldl (stretch plan) c

/-- As long as no call ends there is nothing to write down. -/
theorem runs_carry_of_none {limit : Nat} {c : Chronicle σ} (h : c.timeline.ending? limit = none) :
    (c.carry limit).runs = c.runs := by
  rw [carry, h, Run.settle_none, List.map_id]

section Erasure

/-! ### Writing down changes nothing -/

variable {plan}

@[simp] theorem timeline_carry (limit : Nat) (c : Chronicle σ) :
    (c.carry limit).timeline = c.timeline.carry limit := rfl

@[simp] theorem timeline_tick (at_ : Nat) (c : Chronicle σ) :
    (c.tick plan at_).timeline = c.timeline.tick plan at_ := rfl

@[simp] theorem timeline_ticks (count at_ : Nat) (c : Chronicle σ) :
    (c.ticks plan count at_).timeline = c.timeline.ticks plan count at_ := by
  induction count generalizing at_ c with
  | zero => rfl
  | succ count ih => exact ih _ _

theorem timeline_sleep (ms : Nat) (c : Chronicle σ) :
    (c.sleep plan ms).timeline = c.timeline.sleep plan ms := by
  simp only [sleep, Timeline.sleep_eq, poll]
  cases (c.timeline.poll plan).task.next? with
  | none => rfl
  | some next => rw [timeline_carry, timeline_ticks]

theorem timeline_stretch (a : Nat × (σ → σ)) (c : Chronicle σ) :
    (c.stretch plan a).timeline = c.timeline.stretch plan a := by
  simp only [stretch, Timeline.stretch, timeline_sleep]

/-- **Writing down changes nothing.** -/
theorem timeline_pass (stretches : List (Nat × (σ → σ))) (c : Chronicle σ) :
    (c.pass plan stretches).timeline = c.timeline.pass plan stretches := by
  induction stretches generalizing c with
  | nil => rfl
  | cons a stretches ih => exact (ih (c.stretch plan a)).trans (by rw [timeline_stretch]; rfl)

end Erasure

section Instants

/-! ### The instants of the ticks -/

variable {plan}

@[simp] theorem map_tick_carry (limit : Nat) (c : Chronicle σ) :
    (c.carry limit).runs.map Run.tick = c.runs.map Run.tick := by
  simp [carry, Function.comp_def]

theorem map_tick_tick (at_ : Nat) (c : Chronicle σ) :
    (c.tick plan at_).runs.map Run.tick = c.runs.map Run.tick ++ [at_] := by
  rw [tick, List.map_append, map_tick_carry]
  simp

theorem map_tick_ticks (start k count : Nat) (c : Chronicle σ) :
    (c.ticks plan count (plan.instant start k)).runs.map Run.tick =
      c.runs.map Run.tick ++ (List.range' k count).map (plan.instant start) := by
  induction count generalizing k c with
  | zero => simp [ticks]
  | succ count ih =>
    rw [ticks, ← SchedulePlan.instant_succ, ih, map_tick_tick, List.append_assoc, List.range'_succ]
    rfl

/-- The ticks so far are those that the plan names, if the schedule was started at `start`, and the
next one is that which it names next. -/
structure OnTime (plan : SchedulePlan σ) (start : Nat) (c : Chronicle σ) : Prop where
  /-- The schedule was not cancelled. -/
  goesOn : c.timeline.cancelled = false
  /-- The next tick is that which the plan names next. -/
  next : c.timeline.task.next? = some (plan.instant start c.runs.length)
  /-- The ticks so far are those that the plan names. -/
  ticks : c.runs.map Run.tick = (List.range c.runs.length).map (plan.instant start)
  /-- They are past. -/
  past : ∀ k < c.runs.length, plan.instant start k ≤ c.timeline.now

/-- The ticks so far come before the next one. -/
theorem OnTime.tick_lt {start : Nat} {c : Chronicle σ} (hinterval : 0 < plan.health.checkIntervalMs)
    (h : c.OnTime plan start) {r : Run} (hr : r ∈ c.runs) :
    r.tick < plan.instant start c.runs.length := by
  have htick := List.mem_map_of_mem (f := Run.tick) hr
  rw [h.ticks] at htick
  obtain ⟨k, hk, hrk⟩ := List.mem_map.1 htick
  rw [← hrk]
  exact (SchedulePlan.instant_lt_iff hinterval).2 (List.mem_range.1 hk)

/-- The task has not run yet, or the ticks are on time, and every one that falls on an instant up to
the present one is past. -/
inductive Punctual (plan : SchedulePlan σ) (start : Nat) (c : Chronicle σ) : Prop
  /-- The task has not run yet. -/
  | starting (goesOn : c.timeline.cancelled = false) (task : c.timeline.task = .started)
      (now : c.timeline.now = start) (runs : c.runs = [])
  /-- The ticks are on time. -/
  | running (onTime : c.OnTime plan start)
      (next : c.timeline.now < plan.instant start c.runs.length)

variable {start : Nat} {c : Chronicle σ}

/-- The task runs, and waits for the tick that the plan names next. -/
theorem Punctual.poll (hinterval : 0 < plan.health.checkIntervalMs) (h : c.Punctual plan start) :
    (c.poll plan).OnTime plan start ∧
      (∃ task, (c.poll plan).timeline = { c.timeline with task := task }) ∧
      c.timeline.now ≤ plan.instant start c.runs.length := by
  cases h with
  | starting goesOn task now runs =>
    have hpoll : (c.poll plan).timeline =
        { c.timeline with task := .delaying (plan.instant start 0) } := by
      simp [Chronicle.poll, Timeline.poll, task, goesOn, Nat.ne_of_gt hinterval, now,
        SchedulePlan.instant]
    have hnone : (c.poll plan).runs = [] := runs
    refine ⟨⟨?_, ?_, ?_, ?_⟩, ⟨_, hpoll⟩, ?_⟩
    · rw [hpoll]
      exact goesOn
    · rw [hpoll, hnone]
      rfl
    · rw [hnone]
      rfl
    · simp [hnone]
    · rw [now]
      exact SchedulePlan.le_instant start _
  | running onTime next =>
    have hpoll : c.timeline.poll plan = c.timeline := by
      have hnext := onTime.next
      have hgoesOn := onTime.goesOn
      cases htask : c.timeline.task <;> simp_all [Timeline.poll, ScheduleTask.next?]
    have hsame : c.poll plan = c := by rw [Chronicle.poll, hpoll]
    rw [hsame]
    exact ⟨onTime, ⟨c.timeline.task, rfl⟩, Nat.le_of_lt next⟩

/-- The ticks up to an instant, from the next one on, are those that the plan names. -/
theorem OnTime.sleep (hinterval : 0 < plan.health.checkIntervalMs) (h : c.OnTime plan start)
    {limit : Nat} (hlimit : c.timeline.now ≤ limit) :
    ((c.ticks plan (Timeline.tickCount (plan.instant start c.runs.length)
      plan.health.checkIntervalMs limit) (plan.instant start c.runs.length)).carry
        limit).Punctual plan start := by
  generalize hcount : Timeline.tickCount (plan.instant start c.runs.length)
    plan.health.checkIntervalMs limit = count
  have hspec : ∀ i, i < count ↔ plan.instant start (c.runs.length + i) ≤ limit := by
    intro i
    rw [← hcount, Timeline.lt_tickCount hinterval, SchedulePlan.instant_add]
  have hticks : (c.ticks plan count (plan.instant start c.runs.length)).runs.map Run.tick = _ :=
    map_tick_ticks start c.runs.length count c
  generalize hlater : c.ticks plan count (plan.instant start c.runs.length) = later at hticks
  have hlength : later.runs.length = c.runs.length + count := by
    simpa using congrArg List.length hticks
  have htimeline : later.timeline =
      c.timeline.ticks plan count (plan.instant start c.runs.length) := by
    rw [← hlater, timeline_ticks]
  have hrange : (later.carry limit).runs.length = c.runs.length + count := by
    simp [carry, hlength]
  refine .running ⟨?_, ?_, ?_, ?_⟩ ?_
  · rw [timeline_carry, Timeline.cancelled_carry, htimeline, Timeline.cancelled_ticks]
    exact h.goesOn
  · rw [timeline_carry, Timeline.task_carry, htimeline, Timeline.task_ticks, hrange,
      SchedulePlan.instant_add]
    split
    · simp [*, h.next]
    · rfl
  · rw [map_tick_carry, hrange, hticks, h.ticks, ← List.map_append, List.range_eq_range',
      List.range_eq_range', ← List.range'_append_1, Nat.zero_add]
  · intro k hk
    show _ ≤ limit
    rw [hrange] at hk
    by_cases hold : k < c.runs.length
    · exact Nat.le_trans (h.past k hold) hlimit
    · have hnew := (hspec (k - c.runs.length)).1 (by omega)
      rwa [Nat.add_sub_of_le (Nat.le_of_not_lt hold)] at hnew
  · show limit < _
    rw [hrange]
    exact Nat.lt_of_not_le fun hle => Nat.lt_irrefl count ((hspec count).2 hle)

/-- **The ticks of a time that passes** are those that the plan names up to its end. -/
theorem Punctual.sleep (hinterval : 0 < plan.health.checkIntervalMs) (ms : Nat)
    (h : c.Punctual plan start) : (c.sleep plan ms).Punctual plan start := by
  obtain ⟨hpolled, ⟨task, hpoll⟩, -⟩ := h.poll hinterval
  have hnow : (c.poll plan).timeline.now ≤ c.timeline.now + ms := by
    rw [hpoll]
    exact Nat.le_add_right _ _
  rw [Chronicle.sleep]
  simp only [hpolled.next]
  exact hpolled.sleep hinterval hnow

theorem Punctual.stretch (hinterval : 0 < plan.health.checkIntervalMs) (a : Nat × (σ → σ))
    (h : c.Punctual plan start) : (c.stretch plan a).Punctual plan start := by
  cases h.sleep hinterval a.1 with
  | starting goesOn task now runs => exact .starting goesOn task now runs
  | running onTime next =>
    exact .running ⟨onTime.goesOn, onTime.next, onTime.ticks, onTime.past⟩ next

/-- However time passes, the ticks are on time. -/
theorem Punctual.pass (hinterval : 0 < plan.health.checkIntervalMs)
    (stretches : List (Nat × (σ → σ))) (h : c.Punctual plan start) :
    (c.pass plan stretches).Punctual plan start := by
  induction stretches generalizing c with
  | nil => exact h
  | cons a stretches ih => exact ih (h.stretch hinterval a)

end Instants

end Chronicle

end Upkeep
