import Mathlib.Algebra.GroupWithZero.Nat
import Upkeep.Proofs.Cycle.Isolation
import Upkeep.Proofs.Schedule.Order

/-!
# The schedule keeps its time

* `Chronicle.ticks_of_punctual` : the ticks before an instant are those that the plan names.
* `Chronicle.Tickless.pass` : a schedule that is disabled or has ended does not tick.
* `Timeline.ends_of_cancel` : a task that was started ends as soon as it is cancelled.
* `Chronicle.punctuality` : **the schedule of cycles**, from its start to its end and beyond.
-/

namespace Upkeep

variable {σ : Type} {plan : SchedulePlan σ}

namespace Timeline

theorem start_of_enabled (henabled : plan.health.enabled = true) (t : Timeline σ) :
    ∃ world, t.start plan = { t with task := .started, shared.world := world } := by
  rw [start, if_pos henabled]
  exact ⟨_, rfl⟩

theorem start_of_disabled (hdisabled : plan.health.enabled = false) (t : Timeline σ) :
    ∃ world, t.start plan = { t with task := .disabled, shared.world := world } := by
  rw [start, hdisabled]
  exact ⟨_, rfl⟩

theorem now_start (t : Timeline σ) : (t.start plan).now = t.now := by
  rw [start]
  split <;> rfl

/-- **A task that was started ends as soon as it is cancelled**, and leaves the calls alone. -/
theorem ends_of_cancel (plan : SchedulePlan σ) {t : Timeline σ} (habsent : t.task ≠ .absent)
    (hcrashed : t.task ≠ .crashed) :
    (t.cancel.join plan).1 = some true ∧ (t.cancel.join plan).2.task = .stopped ∧
      (t.cancel.join plan).2.now = t.now ∧ (t.cancel.join plan).2.waiting = t.waiting ∧
      (t.cancel.join plan).2.shared.busy = t.shared.busy := by
  cases htask : t.task with
  | absent => exact absurd htask habsent
  | crashed => exact absurd htask hcrashed
  | disabled | started | delaying | ticking | stopped =>
    simp [Timeline.join, Timeline.poll, Timeline.cancel, Timeline.report, htask]

end Timeline

namespace Chronicle

variable {start : Nat} {c : Chronicle σ}

/-- **The ticks before an instant** on which none falls are those that the plan names. -/
theorem ticks_of_punctual (hinterval : 0 < plan.health.checkIntervalMs) (h : c.Punctual plan start)
    (hbetween : ∀ k, c.timeline.now ≠ plan.instant start k) (a : Nat) :
    a ∈ c.runs.map Run.tick ↔ a < c.timeline.now ∧ ∃ k, a = plan.instant start k := by
  cases h with
  | starting goesOn task now runs =>
    constructor
    · simp [runs]
    · rintro ⟨hbefore, k, rfl⟩
      rw [now] at hbefore
      exact absurd (SchedulePlan.le_instant start k) (Nat.not_le_of_lt hbefore)
  | running onTime next =>
    rw [onTime.ticks, List.mem_map]
    constructor
    · rintro ⟨k, hk, rfl⟩
      have hpast := onTime.past k (List.mem_range.1 hk)
      exact ⟨Nat.lt_of_le_of_ne hpast fun h => hbetween k h.symm, k, rfl⟩
    · rintro ⟨hbefore, k, rfl⟩
      have hk := (SchedulePlan.instant_lt_iff hinterval).1 (Nat.lt_trans hbefore next)
      exact ⟨k, List.mem_range.2 hk, rfl⟩

/-- The ticks come one after another. -/
theorem pairwise_of_punctual (hinterval : 0 < plan.health.checkIntervalMs)
    (h : c.Punctual plan start) : (c.runs.map Run.tick).Pairwise (· < ·) := by
  cases h with
  | starting goesOn task now runs => simp [runs]
  | running onTime next =>
    rw [onTime.ticks, List.pairwise_map]
    exact List.pairwise_lt_range.imp fun hk => (SchedulePlan.instant_lt_iff hinterval).2 hk

/-- The end of a schedule that was not cancelled does not come. -/
theorem Punctual.goes_on (hinterval : 0 < plan.health.checkIntervalMs) (h : c.Punctual plan start) :
    (c.timeline.join plan).1 = none := by
  have hnext := (h.poll hinterval).1.next
  simp only [Chronicle.poll] at hnext
  simp only [Timeline.join]
  cases htask : (c.timeline.poll plan).task <;> simp_all [ScheduleTask.next?]

theorem now_pass (stretches : List (Nat × (σ → σ))) (c : Chronicle σ) :
    (c.pass plan stretches).timeline.now = c.timeline.now + (stretches.map Prod.fst).sum := by
  induction stretches generalizing c with
  | nil => rfl
  | cons a stretches ih =>
    refine (ih (c.stretch plan a)).trans ?_
    simp only [stretch, timeline_sleep, Timeline.now_sleep, List.map_cons, List.sum_cons,
      Nat.add_assoc]

/-- The schedule was disabled, or it has ended. -/
def Tickless (c : Chronicle σ) : Prop :=
  c.timeline.task = .disabled ∨ c.timeline.task = .stopped

theorem Tickless.poll (plan : SchedulePlan σ) (h : c.Tickless) : (c.poll plan).Tickless ∧
    ∃ task, (c.poll plan).timeline = { c.timeline with task := task } := by
  obtain htask | htask := h
  · cases hcancelled : c.timeline.cancelled
    · have hpoll : (c.poll plan).timeline = c.timeline := by
        simp [Chronicle.poll, Timeline.poll, htask, hcancelled]
      exact ⟨.inl (by rw [hpoll, htask]), _, hpoll⟩
    · have hpoll : (c.poll plan).timeline = { c.timeline with task := .stopped } := by
        simp [Chronicle.poll, Timeline.poll, htask, hcancelled]
      exact ⟨.inr (by rw [hpoll]), _, hpoll⟩
  · have hpoll : (c.poll plan).timeline = c.timeline := by
      simp [Chronicle.poll, Timeline.poll, htask]
    exact ⟨.inr (by rw [hpoll, htask]), _, hpoll⟩

/-- Only the call that is in progress goes on. -/
theorem Tickless.sleep_eq (plan : SchedulePlan σ) (h : c.Tickless) (ms : Nat) :
    c.sleep plan ms = (c.poll plan).carry (c.timeline.now + ms) := by
  have hnone : (c.poll plan).timeline.task.next? = none := by
    obtain htask | htask := (h.poll plan).1 <;> rw [htask] <;> rfl
  rw [sleep]
  simp only [hnone]

theorem Tickless.stretch (plan : SchedulePlan σ) (h : c.Tickless) (a : Nat × (σ → σ)) :
    (c.stretch plan a).Tickless ∧ (c.stretch plan a).runs.map Run.tick = c.runs.map Run.tick := by
  simp only [Chronicle.stretch, h.sleep_eq plan]
  exact ⟨(h.poll plan).1, map_tick_carry _ _⟩

/-- **A schedule that is disabled or has ended does not tick.** -/
theorem Tickless.pass (plan : SchedulePlan σ) (h : c.Tickless) (stretches : List (Nat × (σ → σ))) :
    (c.pass plan stretches).Tickless ∧
      (c.pass plan stretches).runs.map Run.tick = c.runs.map Run.tick := by
  induction stretches generalizing c with
  | nil => exact ⟨h, rfl⟩
  | cons a stretches ih =>
    obtain ⟨hfirst, hsame⟩ := h.stretch plan a
    obtain ⟨hlater, hticks⟩ := ih hfirst
    exact ⟨hlater, hticks.trans hsame⟩

/-- A schedule that is disabled waits to be cancelled. -/
theorem disabled_pass (plan : SchedulePlan σ) (htask : c.timeline.task = .disabled)
    (hgoesOn : c.timeline.cancelled = false) (stretches : List (Nat × (σ → σ))) :
    (c.pass plan stretches).timeline.task = .disabled ∧
      (c.pass plan stretches).timeline.cancelled = false := by
  induction stretches generalizing c with
  | nil => exact ⟨htask, hgoesOn⟩
  | cons a stretches ih =>
    have htickless : c.Tickless := .inl htask
    have hpoll : (c.poll plan).timeline = c.timeline := by
      simp [Chronicle.poll, Timeline.poll, htask, hgoesOn]
    refine ih ?_ ?_
    · simp only [stretch, htickless.sleep_eq plan, timeline_carry, Timeline.task_carry, hpoll,
        htask]
    · simp only [stretch, htickless.sleep_eq plan, timeline_carry, Timeline.cancelled_carry, hpoll,
        hgoesOn]

/-- If no call is in progress, nothing happens but what others do. -/
theorem Tickless.pass_of_idle (plan : SchedulePlan σ) (h : c.Tickless)
    (hidle : c.timeline.waiting = []) (stretches : List (Nat × (σ → σ))) :
    (c.pass plan stretches).runs = c.runs ∧ (c.pass plan stretches).timeline.waiting = [] ∧
      (c.pass plan stretches).timeline.shared =
        ⟨c.timeline.shared.busy, stretches.foldl (fun w a => a.2 w) c.timeline.shared.world⟩ := by
  induction stretches generalizing c with
  | nil => exact ⟨rfl, hidle, rfl⟩
  | cons a stretches ih =>
    obtain ⟨-, task, hpoll⟩ := h.poll plan
    have hidle' : (c.poll plan).timeline.waiting = [] := by rw [hpoll, hidle]
    have hruns : (c.stretch plan a).runs = c.runs := by
      simp only [Chronicle.stretch, h.sleep_eq plan]
      exact runs_carry_of_none (by rw [Timeline.ending?, hidle'])
    have htimeline : (c.stretch plan a).timeline = { c.timeline with
        now := c.timeline.now + a.1, task := task
        shared.world := a.2 c.timeline.shared.world } := by
      have hcarry := Timeline.carry_of_idle hidle' (c.timeline.now + a.1)
      simp only [Chronicle.stretch, h.sleep_eq plan, timeline_carry, hcarry]
      rw [hpoll]
    obtain ⟨hlater, hwaiting, hshared⟩ := ih (h.stretch plan a).1 (by rw [htimeline, hidle])
    refine ⟨hlater.trans hruns, hwaiting, hshared.trans ?_⟩
    rw [htimeline]
    rfl

theorem Tickless.stretch_id (plan : SchedulePlan σ) (h : c.Tickless) (ms : Nat) :
    c.stretch plan (ms, id) = (c.poll plan).carry (c.timeline.now + ms) := by
  rw [Chronicle.stretch, h.sleep_eq plan]
  rfl

/-- A time passes that is long enough for the call in progress. -/
theorem Tickless.stretch_ends (plan : SchedulePlan σ) (h : c.Tickless) {wake : Nat}
    {rest : Process σ CycleOutcome} (hwaits : c.timeline.waiting = [(wake, rest)]) {ms : Nat}
    (hend : (rest.finish wake c.timeline.shared.world).1.2 ≤ c.timeline.now + ms) :
    (c.stretch plan (ms, id)).runs =
        c.runs.map (Run.settle (some (rest.finish wake c.timeline.shared.world).1)) ∧
      (c.stretch plan (ms, id)).timeline.waiting = [] ∧
      (c.stretch plan (ms, id)).timeline.shared =
        ⟨false, (rest.finish wake c.timeline.shared.world).2⟩ := by
  obtain ⟨-, task, hpoll⟩ := h.poll plan
  have hwaits' : (c.poll plan).timeline.waiting = [(wake, rest)] := by rw [hpoll, hwaits]
  have hend' : (rest.finish wake (c.poll plan).timeline.shared.world).1.2 ≤
      c.timeline.now + ms := by rwa [hpoll]
  have hending : (c.poll plan).timeline.ending? (c.timeline.now + ms) =
      some (rest.finish wake c.timeline.shared.world).1 := by
    simp only [Timeline.ending?, hwaits', if_pos hend']
    rw [hpoll]
  rw [h.stretch_id, timeline_carry, Timeline.carry_ends hwaits' hend', carry, hending, hpoll]
  exact ⟨rfl, rfl, rfl⟩

/-- A time passes that is too short for it. -/
theorem Tickless.stretch_waits (plan : SchedulePlan σ) (h : c.Tickless) {wake : Nat}
    {rest : Process σ CycleOutcome} (hwaits : c.timeline.waiting = [(wake, rest)])
    (hbusy : c.timeline.shared.busy = true) {ms : Nat}
    (hend : c.timeline.now + ms < (rest.finish wake c.timeline.shared.world).1.2) :
    (c.stretch plan (ms, id)).runs = c.runs ∧
      ∃ wake' rest' world, (c.stretch plan (ms, id)).timeline.waiting = [(wake', rest')] ∧
        (c.stretch plan (ms, id)).timeline.shared = ⟨true, world⟩ ∧
        rest'.finish wake' world = rest.finish wake c.timeline.shared.world := by
  obtain ⟨-, task, hpoll⟩ := h.poll plan
  have hwaits' : (c.poll plan).timeline.waiting = [(wake, rest)] := by rw [hpoll, hwaits]
  have hbusy' : (c.poll plan).timeline.shared.busy = true := by rw [hpoll, hbusy]
  have hend' : c.timeline.now + ms <
      (rest.finish wake (c.poll plan).timeline.shared.world).1.2 := by rwa [hpoll]
  have hending : (c.poll plan).timeline.ending? (c.timeline.now + ms) = none := by
    simp only [Timeline.ending?, hwaits', if_neg (Nat.not_le_of_lt hend')]
  obtain ⟨wake', rest', world, htimeline, -, hsame, -⟩ :=
    Timeline.carry_waits hwaits' hbusy' (rest.makes_anything ·) hend'
  rw [hpoll] at hsame
  rw [h.stretch_id, timeline_carry, htimeline, runs_carry_of_none hending]
  exact ⟨rfl, wake', rest', world, rfl, rfl, hsame⟩

/-- **A call in progress is not cut short** by the end of the schedule, in whatever portions time
passes until the end of the call. -/
theorem Tickless.ends (plan : SchedulePlan σ) (h : c.Tickless) {wake : Nat}
    {rest : Process σ CycleOutcome} (hwaits : c.timeline.waiting = [(wake, rest)])
    (hbusy : c.timeline.shared.busy = true) {times : List Nat} (htimes : times ≠ [])
    (hend : (rest.finish wake c.timeline.shared.world).1.2 ≤ c.timeline.now + times.sum) :
    let c' := c.pass plan (times.map (·, id))
    c'.runs = c.runs.map (Run.settle (some (rest.finish wake c.timeline.shared.world).1)) ∧
      c'.timeline.waiting = [] ∧
      c'.timeline.shared = ⟨false, (rest.finish wake c.timeline.shared.world).2⟩ := by
  induction times generalizing c wake rest with
  | nil => exact absurd rfl htimes
  | cons ms times ih =>
    have htickless := (h.stretch plan (ms, id)).1
    rw [List.sum_cons, ← Nat.add_assoc] at hend
    by_cases hnow : (rest.finish wake c.timeline.shared.world).1.2 ≤ c.timeline.now + ms
    · obtain ⟨hruns, hidle, hshared⟩ := h.stretch_ends plan hwaits hnow
      obtain ⟨hruns', hidle', hshared'⟩ :=
        htickless.pass_of_idle plan hidle (times.map (·, id))
      refine ⟨hruns'.trans hruns, hidle', hshared'.trans ?_⟩
      rw [hshared, List.foldl_map]
      simp
    · obtain ⟨hruns, wake', rest', world, hwaits', hshared, hsame⟩ :=
        h.stretch_waits plan hwaits hbusy (Nat.lt_of_not_le hnow)
      have hlater : times ≠ [] := by
        rintro rfl
        exact hnow hend
      have hinstant : (c.stretch plan (ms, id)).timeline.now = c.timeline.now + ms :=
        now_pass [(ms, id)] c
      have hrest := ih htickless hwaits' (by rw [hshared]) hlater
      rw [hshared, hsame, hinstant, hruns] at hrest
      exact hrest hend

variable {total cycles skipped : σ → Nat} {ran passed base base' n : Nat}

/-- Every run is counted, as a cycle or as one that passed over. -/
theorem Orderly.counted (h : c.Orderly cycles 1 0 base n) (h' : c.Orderly skipped 0 1 base' n) :
    cycles c.timeline.shared.world + skipped c.timeline.shared.world =
        base + base' + c.runs.length ∧
      skipped c.timeline.shared.world = base' + c.runs.countP Run.isSkipped := by
  have hlength := List.length_eq_countP_add_countP Run.isSkipped (l := c.runs)
  simp only [Bool.not_eq_true, Bool.decide_eq_false] at hlength
  rw [h.total, h'.total, hlength]
  omega

theorem Orderly.waiting_le (h : c.Orderly total ran passed base n) :
    c.timeline.waiting.length ≤ 1 := by
  cases h.phase with
  | idle waiting _ => simp [waiting]
  | busy waiting _ _ _ _ => simp [waiting]

/-- A cycle in progress does not end as one that passed over. -/
theorem Orderly.outcome_ne (h : c.Orderly total ran passed base n) {wake : Nat}
    {rest : Process σ CycleOutcome} (hwaits : c.timeline.waiting = [(wake, rest)]) (s : σ) :
    (rest.finish wake s).1.1 ≠ .skipped := by
  cases h.phase with
  | idle waiting _ => exact absurd (hwaits.symm.trans waiting) nofun
  | busy waiting _ _ _ judged =>
    obtain ⟨rfl, rfl⟩ : _ ∧ _ := by simpa using hwaits.symm.trans waiting
    exact ((judged s).finish (fun _ => trivial) wake).2

theorem Orderly.busy_of_waiting (h : c.Orderly total ran passed base n) {wake : Nat}
    {rest : Process σ CycleOutcome} (hwaits : c.timeline.waiting = [(wake, rest)]) :
    c.timeline.shared.busy = true := by
  cases h.phase with
  | idle waiting _ => exact absurd (hwaits.symm.trans waiting) nofun
  | busy _ flag _ _ _ => exact flag

/-- The schedule ends when it is cancelled. -/
theorem Punctual.ends (h : c.Punctual plan start) :
    c.timeline.task ≠ .absent ∧ c.timeline.task ≠ .crashed := by
  cases h with
  | starting _ task _ _ => simp [task]
  | running onTime _ =>
    have hnext := onTime.next
    constructor <;> intro htask <;> simp [htask, ScheduleTask.next?] at hnext

/-- Runs that are fair do not overlap, unless they pass over. -/
theorem apart_of_fair {runs : List Run} (h : Run.Fair runs) :
    runs.Pairwise fun x r => x.isSkipped = false → r.isSkipped = false →
      x.endedBy r.tick = true := by
  rw [List.pairwise_iff_forall_sublist]
  intro x r hsub hran hran'
  obtain ⟨before, rest, rfl, hx, hr⟩ := List.cons_sublist_iff.1 hsub
  obtain ⟨middle, after, rfl⟩ := List.append_of_mem (List.singleton_sublist.1 hr)
  have hfair := h (before ++ middle) r after (List.append_assoc before middle (r :: after)).symm
  by_contra hopen
  have hskipped := hfair.2 ⟨x, List.mem_append_left middle hx, hran, by simpa using hopen⟩
  rw [hran'] at hskipped
  cases hskipped

/-- **The schedule of cycles.**  Time passes in stretches, after each of which others may change the
world.  If cycles are enabled and there is time between ticks, then up to an instant at which the
schedule is cancelled the ticks are those that the plan names, however long the cycles take.  Each
of them leads to one run, which is counted: it passes over exactly if a cycle is in progress, so
that cycles do not overlap.  The schedule ends at that instant and ticks no more, and a cycle in
progress goes on to the end that it has without it.  If cycles are disabled nothing is ever run, and
the schedule ends when it is cancelled. -/
theorem punctuality (plan : SchedulePlan σ) (start : Nat) (w : σ)
    (stretches : List (Nat × (σ → σ))) :
    let t := Timeline.start plan { now := start, shared := ⟨false, w⟩ }
    let c := Chronicle.pass plan stretches ⟨t, []⟩
    let stopped := c.timeline.cancel.join plan
    let c' : Chronicle σ := ⟨stopped.2, c.runs⟩
    -- writing down what is run changes nothing
    (c.timeline = t.pass plan stretches ∧
      c.timeline.now = start + (stretches.map Prod.fst).sum) ∧
    (plan.health.enabled = true → 0 < plan.health.checkIntervalMs →
      -- the ticks are those before the instant that the plan names
      ((∀ k, c.timeline.now ≠ plan.instant start k) →
        (c.runs.map Run.tick).Pairwise (· < ·) ∧
          ∀ a, a ∈ c.runs.map Run.tick ↔ a < c.timeline.now ∧ ∃ k, a = plan.instant start k) ∧
      -- a run passes over exactly if one before it that did not is in progress at its tick
      Run.Fair c.runs ∧
      c.runs.Pairwise (fun x r => x.isSkipped = false → r.isSkipped = false →
        x.endedBy r.tick = true) ∧
      -- every run is counted
      (∀ cycles skipped : σ → Nat,
        plan.surroundings.Records .cycles cycles →
          plan.surroundings.Records .skippedCycles skipped →
            (∀ a ∈ stretches, ∀ w, cycles (a.2 w) = cycles w ∧ skipped (a.2 w) = skipped w) →
              cycles c.timeline.shared.world + skipped c.timeline.shared.world =
                  cycles t.shared.world + skipped t.shared.world + c.runs.length ∧
                skipped c.timeline.shared.world =
                  skipped t.shared.world + c.runs.countP Run.isSkipped) ∧
      -- the schedule ends when it is cancelled, and not before; then it ticks no more
      (c.timeline.join plan).1 = none ∧
      (stopped.1 = some true ∧ stopped.2.now = c.timeline.now ∧
        ∀ later, (c'.pass plan later).runs.map Run.tick = c.runs.map Run.tick) ∧
      -- at most one run is in progress, which goes on to its end
      (c.runs.countP Run.isOpen = stopped.2.waiting.length ∧ stopped.2.waiting.length ≤ 1) ∧
      ∀ wake rest, stopped.2.waiting = [(wake, rest)] →
        let ended := rest.finish wake stopped.2.shared.world
        ended.1.1 ≠ .skipped ∧
          ∀ times : List Nat, times ≠ [] → ended.1.2 ≤ c.timeline.now + times.sum →
            let later := c'.pass plan (times.map (·, id))
            later.runs = c.runs.map (Run.settle (some ended.1)) ∧
              later.timeline.waiting = [] ∧ later.timeline.shared = ⟨false, ended.2⟩) ∧
    (plan.health.enabled = false →
      c.runs = [] ∧ c.timeline.shared =
        ⟨false, stretches.foldl (fun w a => a.2 w) t.shared.world⟩ ∧
      (c.timeline.join plan).1 = none ∧
      stopped.1 = some true ∧ stopped.2.now = c.timeline.now ∧
        ∀ later, (c'.pass plan later).runs = []) := by
  intro t c stopped c'
  have hnow : t.now = start := Timeline.now_start _
  refine ⟨⟨timeline_pass stretches ⟨t, []⟩, hnow ▸ now_pass stretches ⟨t, []⟩⟩,
    fun henabled hinterval => ?_, fun hdisabled => ?_⟩
  · obtain ⟨world, ht⟩ :=
      Timeline.start_of_enabled henabled { now := start, shared := ⟨false, w⟩ }
    have hstart : Punctual plan start (⟨t, []⟩ : Chronicle σ) :=
      .starting (congrArg Timeline.cancelled ht) (congrArg Timeline.task ht) hnow rfl
    have hpunctual : c.Punctual plan start := hstart.pass hinterval stretches
    have horderly : ∀ {total : σ → Nat} {ran passed : Nat}, Gauge plan total ran passed →
        (∀ a ∈ stretches, ∀ w, total (a.2 w) = total w) →
          c.Orderly total ran passed (total t.shared.world) c.timeline.now := by
      intro total ran passed hgauge hothers
      refine Orderly.pass hgauge hinterval stretches hothers hstart ⟨.idle ?_ ?_, ?_, nofun,
        Run.fair_nil, rfl⟩
      · exact congrArg Timeline.waiting ht
      · exact congrArg (fun t => t.shared.busy) ht
      · exact (congrArg (fun t => t.waiting.length) ht).symm
    have hplain := horderly (Gauge.zero plan) fun _ _ _ => rfl
    obtain ⟨hended, hstopped, hthen, hwaiting, hflag⟩ :=
      Timeline.ends_of_cancel plan hpunctual.ends.1 hpunctual.ends.2
    have htickless : c'.Tickless := .inr hstopped
    refine ⟨fun hbetween => ⟨pairwise_of_punctual hinterval hpunctual,
      ticks_of_punctual hinterval hpunctual hbetween⟩, hplain.fair, apart_of_fair hplain.fair,
      fun cycles skipped hcycles hskipped hothers => ?_, hpunctual.goes_on hinterval,
      ⟨hended, hthen, fun later => (htickless.pass plan later).2⟩, ?_, fun wake rest hwaits => ?_⟩
    · exact (horderly (.cycles hcycles) fun a ha w => (hothers a ha w).1).counted
        (horderly (.skippedCycles hskipped) fun a ha w => (hothers a ha w).2)
    · rw [hwaiting]
      exact ⟨hplain.isOpen, hplain.waiting_le⟩
    · refine ⟨hplain.outcome_ne (hwaiting.symm.trans hwaits) _, fun times htimes hend => ?_⟩
      have hbusy : stopped.2.shared.busy = true :=
        hflag.trans (hplain.busy_of_waiting (hwaiting.symm.trans hwaits))
      exact htickless.ends plan hwaits hbusy htimes (hthen.symm ▸ hend)
  · obtain ⟨world, ht⟩ :=
      Timeline.start_of_disabled hdisabled { now := start, shared := ⟨false, w⟩ }
    have hstart : Tickless (⟨t, []⟩ : Chronicle σ) := .inl (congrArg Timeline.task ht)
    obtain ⟨hruns, hidle, hshared⟩ := hstart.pass_of_idle plan
      (congrArg Timeline.waiting ht) stretches
    obtain ⟨htask, hgoesOn⟩ := disabled_pass (c := ⟨t, []⟩) plan
      (congrArg Timeline.task ht) (congrArg Timeline.cancelled ht) stretches
    obtain ⟨hended, hstopped, hthen, hwaiting, -⟩ :=
      Timeline.ends_of_cancel (t := c.timeline) plan (by simp [c, htask])
        (by simp [c, htask])
    have hflag : t.shared.busy = false := congrArg (fun t => t.shared.busy) ht
    refine ⟨hruns, by rw [hshared, hflag], ?_, hended, hthen, fun later => ?_⟩
    · simp [c, Timeline.join, Timeline.poll, htask, hgoesOn]
    · have htickless : c'.Tickless := .inr hstopped
      exact (htickless.pass_of_idle plan (hwaiting.trans hidle) later).1.trans hruns

/-- Ticks at every hundred milliseconds from thirty on, on a node on which an install takes longer
than that. -/
def longInstall : SchedulePlan (World Unit) where
  surroundings := World.surroundings "n1" (fun _ => .pause 150 (.done (.ok true)))
    fun _ peers _ => .done (.ok (Table.ofList (peers.map fun peer => (peer, ⟨peer, "Orders", 1⟩))))
  health := { checkIntervalMs := 100 }
  firstDelayMs := 30

/-- The second tick passes over, the cycle of the first one ends after the schedule has, and the
copy is online then.  A schedule that is disabled runs nothing. -/
theorem punctuality_longInstall :
    let c := Chronicle.pass longInstall [(100, id), (70, id)]
      ⟨Timeline.start longInstall { shared := ⟨false, Pool.staleCopy⟩ }, []⟩
    let c' : Chronicle (World Unit) := ⟨(c.timeline.cancel.join longInstall).2, c.runs⟩
    let later := c'.pass longInstall ([5, 15].map (·, id))
    let disabled : SchedulePlan (World Unit) := { longInstall with health.enabled := false }
    (∀ a, a ∈ c.runs.map Run.tick ↔ a < 170 ∧ ∃ k, a = 30 + k * 100) ∧
      c.runs = [⟨30, none⟩, ⟨130, some (.skipped, 130)⟩] ∧
      c.timeline.shared.world.journal.tally.count .skippedCycles = 1 ∧
      later.runs = [⟨30, some (.completed, 180)⟩, ⟨130, some (.skipped, 130)⟩] ∧
      later.timeline.shared.world.directory.entries.find? ⟨"n1", "Orders"⟩ = some .online ∧
      (Chronicle.pass disabled [(100, id), (70, id)]
        ⟨Timeline.start disabled { shared := ⟨false, Pool.staleCopy⟩ }, []⟩).runs = [] := by
  intro c c' later disabled
  obtain ⟨-, henabled, -⟩ := punctuality longInstall 0 Pool.staleCopy [(100, id), (70, id)]
  obtain ⟨-, -, hdisabled⟩ := punctuality disabled 0 Pool.staleCopy [(100, id), (70, id)]
  obtain ⟨hticks, -, -, hcounted, -, -, -, hends⟩ := henabled rfl (by decide)
  have hrecords : ∀ counter, longInstall.surroundings.Records counter fun w =>
      w.journal.tally.count counter := fun counter =>
    World.records counter (fun _ _ _ _ => trivial) fun _ _ _ _ => trivial
  have hruns : c.runs = [⟨30, none⟩, ⟨130, some (.skipped, 130)⟩] := by decide
  have hnow : c.timeline.now = 170 := rfl
  have hbetween : ∀ k, c.timeline.now ≠ longInstall.instant 0 k := by
    intro k
    rw [hnow]
    show 170 ≠ 0 + 30 + k * 100
    omega
  obtain ⟨-, hends⟩ := hends _ _ rfl
  obtain ⟨hlater, -, hshared⟩ := hends [5, 15] (by decide) (by decide)
  refine ⟨?_, hruns, ?_, ?_, ?_, (hdisabled rfl).1⟩
  · exact (hticks hbetween).2
  · have hskipped := (hcounted _ _ (hrecords .cycles) (hrecords .skippedCycles)
      (by simp)).2
    exact hskipped.trans (by rw [hruns]; decide)
  · exact hlater.trans (by rw [hruns]; decide)
  · rw [hshared]
    decide

end Chronicle

end Upkeep
