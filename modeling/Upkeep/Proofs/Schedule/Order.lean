import Upkeep.Proofs.Cycle.Exclusion
import Upkeep.Proofs.Schedule.Chronicle

/-!
# One cycle at a time

However slow the cycles of a schedule are, the run of a tick passes over if the one before it that
did not is still in progress, and runs the checks if not.

* `Run.Fair` : what passes over, and what does not.
* `Gauge` : by how much a quantity grows with each run.
* `Chronicle.Orderly` : at most one call is in progress, the flag tells whether one is, the runs are
  fair, and a quantity has grown by as much as they account for.
* `Chronicle.Orderly.pass` : so it is at every instant of a schedule.
-/

namespace Upkeep

variable {σ : Type}

namespace Run

variable {r : Run} {outcome : CycleOutcome} {instant n m : Nat}

theorem endedBy_mono (h : r.endedBy n = true) (hn : n ≤ m) : r.endedBy m = true := by
  obtain ⟨tick, _ | ⟨outcome, instant⟩⟩ := r
  · exact h
  · simp only [endedBy, Option.any_some, decide_eq_true_eq] at h ⊢
    exact Nat.le_trans h hn

theorem endedBy_of_isOpen (h : r.isOpen = true) : r.endedBy n = false := by
  obtain ⟨tick, _ | ended⟩ := r
  · rfl
  · cases h

theorem isSkipped_of_isOpen (h : r.isOpen = true) : r.isSkipped = false := by
  obtain ⟨tick, _ | ended⟩ := r
  · rfl
  · cases h

@[simp] theorem isOpen_settle_some (ended : CycleOutcome × Nat) (r : Run) :
    (r.settle (some ended)).isOpen = false := by
  obtain ⟨tick, _ | _⟩ := r <;> rfl

/-- A call that was in progress has not passed over. -/
theorem isSkipped_settle (houtcome : outcome ≠ .skipped) (r : Run) :
    (r.settle (some (outcome, instant))).isSkipped = r.isSkipped := by
  obtain ⟨tick, _ | _⟩ := r
  · simp [settle, isSkipped, houtcome]
  · rfl

/-- A call that ends later has not ended yet. -/
theorem endedBy_settle (hinstant : n < instant) (r : Run) :
    (r.settle (some (outcome, instant))).endedBy n = r.endedBy n := by
  obtain ⟨tick, _ | _⟩ := r
  · simpa [settle, endedBy] using hinstant
  · rfl

theorem endedBy_settle_self (hinstant : instant ≤ n)
    (hended : r.isOpen = false → r.endedBy n = true) :
    (r.settle (some (outcome, instant))).endedBy n = true := by
  obtain ⟨tick, _ | _⟩ := r
  · simpa [settle, endedBy] using hinstant
  · exact hended rfl

/-- A run passes over exactly if one before it that did not was still in progress at its tick. -/
def Fair (runs : List Run) : Prop :=
  ∀ before r after, runs = before ++ r :: after →
    (r.isSkipped = true ↔ ∃ x ∈ before, x.isSkipped = false ∧ x.endedBy r.tick = false)

variable {runs : List Run}

theorem fair_nil : Fair [] := fun _ _ _ h => absurd h.symm (by simp)

theorem Fair.snoc (h : Fair runs)
    (hr : r.isSkipped = true ↔ ∃ x ∈ runs, x.isSkipped = false ∧ x.endedBy r.tick = false) :
    Fair (runs ++ [r]) := by
  intro before x after hsplit
  obtain rfl | ⟨after, z, rfl⟩ := after.eq_nil_or_concat'
  · obtain ⟨rfl, hx⟩ := List.append_inj' hsplit rfl
    obtain rfl : r = x := by simpa using hx
    exact hr
  · obtain ⟨hruns, -⟩ := List.append_inj' (hsplit.trans
      (by rw [← List.cons_append, ← List.append_assoc]) : _ = (before ++ x :: after) ++ [z]) rfl
    exact h before x after hruns

/-- Writing down an end that comes after the ticks that passed over leaves the runs fair. -/
theorem Fair.settle (h : Fair runs) (houtcome : outcome ≠ .skipped)
    (hlater : ∀ r ∈ runs, r.isSkipped = true → r.tick < instant) :
    Fair (runs.map (Run.settle (some (outcome, instant)))) := by
  intro before' r' after' hsplit
  obtain ⟨before, rest, rfl, rfl, hrest⟩ := List.map_eq_append_iff.1 hsplit
  obtain ⟨r, after, rfl, rfl, rfl⟩ := List.map_eq_cons_iff.1 hrest
  rw [isSkipped_settle houtcome, tick_settle, h before r after rfl]
  constructor
  · rintro ⟨x, hx, hran, hopen⟩
    have hskipped : r.isSkipped = true := (h before r after rfl).2 ⟨x, hx, hran, hopen⟩
    refine ⟨x.settle (some (outcome, instant)), List.mem_map_of_mem hx, ?_, ?_⟩
    · rwa [isSkipped_settle houtcome]
    · rwa [endedBy_settle (hlater r (by simp) hskipped)]
  · rintro ⟨x', hx', hran, hopen⟩
    obtain ⟨x, hx, rfl⟩ := List.mem_map.1 hx'
    rw [isSkipped_settle houtcome] at hran
    refine ⟨x, hx, hran, ?_⟩
    -- what has ended by now and had not by that tick was in progress then
    obtain ⟨tick, _ | _⟩ := x
    · rfl
    · exact hopen

/-- What the runs account for, with one more run. -/
theorem account_snoc (ran passed base : Nat) (runs : List Run) (r : Run) :
    base + ran * (runs ++ [r]).countP (fun r => !r.isSkipped) +
        passed * (runs ++ [r]).countP isSkipped =
      base + ran * runs.countP (fun r => !r.isSkipped) + passed * runs.countP isSkipped +
        if r.isSkipped then passed else ran := by
  rw [List.countP_append, List.countP_append, List.countP_singleton, List.countP_singleton]
  cases r.isSkipped <;> simp [Nat.mul_add] <;> omega

end Run

/-- A quantity grows by `ran` as a cycle begins and by `passed` as a call passes over, and a cycle
that has begun leaves it alone. -/
structure Gauge (plan : SchedulePlan σ) (total : σ → Nat) (ran passed : Nat) : Prop where
  /-- It grows as a cycle begins. -/
  opened : ∀ s, total (Cycle.opened plan.surroundings s) = total s + ran
  /-- It grows as a call passes over. -/
  passed : ∀ s, total (Cycle.passed plan.surroundings s) = total s + passed
  /-- A cycle that has begun leaves it alone, and does not end as one that passed over. -/
  rest : ∀ s, ((Cycle.rest plan.surroundings.home plan.health.policy).within
    plan.surroundings).Ensures (fun _ _ => True) (fun s s' => total s' = total s)
      (fun outcome _ => outcome ≠ .skipped) s

/-- What every answer that counts no cycle keeps to, a cycle that has begun keeps to. -/
theorem Cycle.rest_ensures {e : Surroundings σ} {G : σ → σ → Prop} (policy : DemotionPolicy)
    (hG : ∀ r : Request, r.IsUncounted → ∀ s, (e.answer r).Makes G s) (s : σ) :
    ((Cycle.rest e.home policy).within e).Ensures (fun _ _ => True) G
      (fun outcome _ => outcome ≠ .skipped) s := by
  refine ((Cycle.rest_uncounted e.home policy).ensures (fun _ _ => True) ?_ trivial).mono
    (fun _ _ h => h) (fun _ _ h => h) fun _ _ ⟨_, _, houtcome⟩ => houtcome
  intro r s _ _ hallowed
  obtain ⟨x⟩ := r.nonempty_answer
  exact (hG r (hallowed x () trivial) s).mono (fun _ _ h => h) (fun _ _ h => h)
    fun _ _ _ => ⟨(), trivial, trivial⟩

namespace Gauge

variable {plan : SchedulePlan σ} {total : σ → Nat}

/-- Nothing grows with nothing. -/
theorem zero (plan : SchedulePlan σ) : Gauge plan (fun _ => 0) 0 0 where
  opened _ := rfl
  passed _ := rfl
  rest := Cycle.rest_ensures _ fun r _ s =>
    ((plan.surroundings.answer r).makes_anything s).mono (fun _ _ h => h) (fun _ _ _ => rfl)
      fun _ _ h => h

theorem makes_of_records {e : Surroundings σ} {c : Counter} (h : e.Records c total)
    {r : Request} (hr : r ≠ .note (.count c)) (s : σ) :
    (e.answer r).Makes (fun s s' => total s' = total s) s := by
  by_cases hnote : ∀ n, r ≠ .note n
  · exact h.answers r hnote s
  · obtain ⟨n, rfl⟩ : ∃ n, r = .note n := by simpa using hnote
    exact ⟨h.others n s fun hn => hr (hn ▸ rfl), trivial⟩

/-- A cycle that begins is counted. -/
theorem cycles (h : plan.surroundings.Records .cycles total) : Gauge plan total 1 0 where
  opened s := by rw [Cycle.opened, h.counts, h.others (.report _) s nofun]
  passed s := by
    rw [Cycle.passed, h.others (.count .skippedCycles) _ nofun, h.others (.report _) s nofun]
    rfl
  rest := Cycle.rest_ensures _ fun _ hr s => makes_of_records h hr.1 s

/-- A call that passes over is counted. -/
theorem skippedCycles (h : plan.surroundings.Records .skippedCycles total) :
    Gauge plan total 0 1 where
  opened s := by
    rw [Cycle.opened, h.others (.count .cycles) _ nofun, h.others (.report _) s nofun]
    rfl
  passed s := by rw [Cycle.passed, h.counts, h.others (.report _) s nofun]
  rest := Cycle.rest_ensures _ fun _ hr s => makes_of_records h hr.2 s

end Gauge

namespace Call

variable (e : Surroundings σ) (policy : DemotionPolicy) {s : Shared σ}

theorem begin_of_busy (h : s.busy = true) :
    begin e policy s = (.ended .skipped, ⟨true, Cycle.passed e s.world⟩) := by
  rw [begin, if_pos h, Cycle.advance_passOver]
  rfl

theorem begin_of_idle (h : s.busy = false) :
    begin e policy s =
      hold (((Cycle.rest e.home policy).within e).advance (Cycle.opened e s.world)) := by
  rw [begin, h, Cycle.advance_body]
  rfl

end Call

/-- A call of the cycle begins at an instant. -/
def Timeline.enter (plan : SchedulePlan σ) (at_ : Nat) (t : Timeline σ) : Timeline σ :=
  let t := { t with task := .ticking (at_ + plan.health.checkIntervalMs) }
  match Call.begin plan.surroundings plan.health.policy t.shared with
  | (.running ms rest, shared) =>
    { t with waiting := t.waiting ++ [(at_ + ms, rest)], shared := shared }
  | (_, shared) => { t with shared := shared }

namespace Chronicle

/-- Whether a call is in progress at an instant, as the flag tells. -/
inductive Phase (total : σ → Nat) (n : Nat) (c : Chronicle σ) : Prop
  /-- No call is in progress. -/
  | idle (waiting : c.timeline.waiting = []) (flag : c.timeline.shared.busy = false)
  /-- One call is in progress, and those after it have passed over. -/
  | busy {wake : Nat} {rest : Process σ CycleOutcome}
      (waiting : c.timeline.waiting = [(wake, rest)])
      (flag : c.timeline.shared.busy = true) (later : n ≤ wake)
      (skipped : ∀ r ∈ c.runs, r.isSkipped = true → r.tick < wake)
      (judged : ∀ s, rest.Ensures (fun _ _ => True) (fun s s' => total s' = total s)
        (fun outcome _ => outcome ≠ .skipped) s)

/-- The runs are in order at an instant. -/
structure Orderly (total : σ → Nat) (ran passed base n : Nat) (c : Chronicle σ) : Prop where
  /-- At most one call is in progress. -/
  phase : c.Phase total n
  /-- It is that of the run that is still open. -/
  isOpen : c.runs.countP Run.isOpen = c.timeline.waiting.length
  /-- What was written down is past. -/
  past : ∀ r ∈ c.runs, r.tick ≤ n ∧ (r.isOpen = false → r.endedBy n = true)
  /-- The runs are fair. -/
  fair : Run.Fair c.runs
  /-- The quantity has grown by as much as the runs account for. -/
  total : total c.timeline.shared.world = base +
    ran * c.runs.countP (fun r => !r.isSkipped) + passed * c.runs.countP Run.isSkipped

variable {plan : SchedulePlan σ} {total : σ → Nat} {ran passed base n limit : Nat}
  {c : Chronicle σ}

/-- As long as no run begins or ends the runs stay in order. -/
theorem Orderly.later {c' : Chronicle σ} (h : c.Orderly total ran passed base n) (hn : n ≤ limit)
    (hphase : c'.Phase total limit) (hruns : c'.runs = c.runs)
    (hlength : c'.timeline.waiting.length = c.timeline.waiting.length)
    (htotal : total c'.timeline.shared.world = total c.timeline.shared.world) :
    c'.Orderly total ran passed base limit := by
  refine ⟨hphase, by rw [hruns, hlength, h.isOpen], ?_, by rw [hruns]; exact h.fair,
    by rw [hruns, htotal]; exact h.total⟩
  intro r hr
  obtain ⟨htick, hended⟩ := h.past r (hruns ▸ hr)
  exact ⟨Nat.le_trans htick hn, fun hopen => Run.endedBy_mono (hended hopen) hn⟩

/-- The order of the runs rests on the calls in progress, the flag and the quantity. -/
theorem Orderly.of_same {c' : Chronicle σ} (h : c.Orderly total ran passed base n)
    (hruns : c'.runs = c.runs) (hwaiting : c'.timeline.waiting = c.timeline.waiting)
    (hflag : c'.timeline.shared.busy = c.timeline.shared.busy)
    (htotal : total c'.timeline.shared.world = total c.timeline.shared.world) :
    c'.Orderly total ran passed base n := by
  refine h.later (Nat.le_refl n) ?_ hruns (by rw [hwaiting]) htotal
  cases h.phase with
  | idle waiting flag => exact .idle (hwaiting.trans waiting) (hflag.trans flag)
  | busy waiting flag later skipped judged =>
    exact .busy (hwaiting.trans waiting) (hflag.trans flag) later (by rwa [hruns]) judged

/-- Writing down how the call in progress has ended leaves the runs in order. -/
theorem Orderly.settle {c' : Chronicle σ} {outcome : CycleOutcome} {instant : Nat}
    (h : c.Orderly total ran passed base n) (hn : n ≤ limit) (houtcome : outcome ≠ .skipped)
    (hinstant : instant ≤ limit) (hlater : ∀ r ∈ c.runs, r.isSkipped = true → r.tick < instant)
    (hruns : c'.runs = c.runs.map (Run.settle (some (outcome, instant))))
    (hidle : c'.timeline.waiting = []) (hflag : c'.timeline.shared.busy = false)
    (htotal : total c'.timeline.shared.world = total c.timeline.shared.world) :
    c'.Orderly total ran passed base limit := by
  have hskips : ∀ r : Run, (r.settle (some (outcome, instant))).isSkipped = r.isSkipped :=
    Run.isSkipped_settle houtcome
  refine ⟨.idle hidle hflag, ?_, ?_, ?_, ?_⟩
  · rw [hruns, hidle, List.countP_map]
    simp [Function.comp_def]
  · rw [hruns]
    simp only [List.mem_map, forall_exists_index, and_imp, forall_apply_eq_imp_iff₂]
    intro r hr
    obtain ⟨htick, hended⟩ := h.past r hr
    exact ⟨Nat.le_trans htick hn, fun _ =>
      Run.endedBy_settle_self hinstant fun hopen => Run.endedBy_mono (hended hopen) hn⟩
  · rw [hruns]
    exact h.fair.settle houtcome hlater
  · rw [hruns, List.countP_map, List.countP_map]
    simp only [Function.comp_def, hskips]
    exact htotal.trans h.total

/-- **The call in progress goes on**, up to an instant or to its end, which is written down. -/
theorem Orderly.carry (h : c.Orderly total ran passed base n) (hn : n ≤ limit) :
    (c.carry limit).Orderly total ran passed base limit := by
  cases h.phase with
  | idle waiting flag =>
    have hruns : (c.carry limit).runs = c.runs :=
      runs_carry_of_none (by rw [Timeline.ending?, waiting])
    have htimeline : (c.carry limit).timeline = _ := Timeline.carry_of_idle waiting limit
    exact h.later hn (.idle (by rw [htimeline, waiting]) (by rw [htimeline, flag])) hruns
      (by rw [htimeline]) (by rw [htimeline])
  | @busy wake rest waiting flag later skipped judged =>
    by_cases hend : (rest.finish wake c.timeline.shared.world).1.2 ≤ limit
    · -- the call ends
      obtain ⟨hsteps, houtcome⟩ :=
        (judged c.timeline.shared.world).finish (fun _ => trivial) wake
      have hruns : (c.carry limit).runs =
          c.runs.map (Run.settle (some (rest.finish wake c.timeline.shared.world).1)) := by
        simp only [Chronicle.carry, Timeline.ending?, waiting, if_pos hend]
      have htimeline : (c.carry limit).timeline = _ := Timeline.carry_ends waiting hend
      refine h.settle hn houtcome hend (fun r hr hskip => ?_) hruns (by rw [htimeline])
        (by rw [htimeline]) ?_
      · exact Nat.lt_of_lt_of_le (skipped r hr hskip) (rest.le_finish wake _)
      · rw [htimeline]
        exact Process.same_of_steps hsteps
    · -- the call still waits
      obtain ⟨wake', rest', world', htimeline, hlater, -, hsteps, hjudged⟩ :=
        Timeline.carry_waits waiting flag judged (Nat.lt_of_not_le hend)
      have hruns : (c.carry limit).runs = c.runs :=
        runs_carry_of_none (by simp only [Timeline.ending?, waiting, if_neg hend])
      rw [← timeline_carry] at htimeline
      refine h.later hn (.busy (by rw [htimeline]) (by rw [htimeline]) (Nat.le_of_lt hlater) ?_
        hjudged) hruns (by rw [htimeline, waiting]; rfl) ?_
      · intro r hr _
        exact Nat.lt_of_le_of_lt (Nat.le_trans (h.past r (hruns ▸ hr)).1 hn) hlater
      · rw [htimeline]
        exact Process.same_of_steps hsteps

/-- A call begins at an instant, and leads to one run. -/
def enter (plan : SchedulePlan σ) (at_ : Nat) (c : Chronicle σ) : Chronicle σ :=
  let call := (Call.begin plan.surroundings plan.health.policy c.timeline.shared).1
  ⟨c.timeline.enter plan at_, c.runs ++ [.ofCall at_ call]⟩

/-- One more run leaves the runs in order, if it passes over as it should and is accounted for. -/
theorem Orderly.snoc {c' : Chronicle σ} {r : Run} (h : c.Orderly total ran passed base n)
    (htick : r.tick = n) (hended : r.isOpen = false → r.endedBy n = true)
    (hruns : c'.runs = c.runs ++ [r]) (hphase : c'.Phase total n)
    (hlength : c'.timeline.waiting.length = c.timeline.waiting.length + r.isOpen.toNat)
    (hfair : r.isSkipped = true ↔ ∃ x ∈ c.runs, x.isSkipped = false ∧ x.endedBy r.tick = false)
    (htotal : total c'.timeline.shared.world =
      total c.timeline.shared.world + if r.isSkipped then passed else ran) :
    c'.Orderly total ran passed base n := by
  refine ⟨hphase, ?_, ?_, ?_, ?_⟩
  · rw [hruns, hlength, List.countP_append, h.isOpen, List.countP_singleton]
    cases r.isOpen <;> rfl
  · rw [hruns]
    intro x hx
    obtain hx | hx := List.mem_append.1 hx
    · exact h.past x hx
    · obtain rfl := List.mem_singleton.1 hx
      exact ⟨Nat.le_of_eq htick, hended⟩
  · rw [hruns]
    exact h.fair.snoc hfair
  · rw [hruns, Run.account_snoc, htotal, h.total]

/-- While a call is in progress its run is open, and did not pass over. -/
theorem Orderly.exists_open (h : c.Orderly total ran passed base n)
    (hwaits : c.timeline.waiting.length = 1) (instant : Nat) :
    ∃ x ∈ c.runs, x.isSkipped = false ∧ x.endedBy instant = false := by
  obtain ⟨x, hx, hopen⟩ : ∃ x ∈ c.runs, x.isOpen = true := by
    rw [← List.countP_pos_iff, h.isOpen, hwaits]
    exact Nat.one_pos
  exact ⟨x, hx, Run.isSkipped_of_isOpen hopen, Run.endedBy_of_isOpen hopen⟩

/-- While no call is in progress every run has ended. -/
theorem Orderly.endedBy_of_idle (h : c.Orderly total ran passed base n)
    (hidle : c.timeline.waiting = []) {x : Run} (hx : x ∈ c.runs) : x.endedBy n = true := by
  have hnone : c.runs.countP Run.isOpen = 0 := by rw [h.isOpen, hidle, List.length_nil]
  exact (h.past x hx).2 (by simpa using List.countP_eq_zero.1 hnone x hx)

variable {at_ : Nat}

/-- A call that begins while one is in progress passes over. -/
theorem Orderly.enter_of_busy (hgauge : Gauge plan total ran passed)
    (h : c.Orderly total ran passed base at_) (hwake : ∀ x ∈ c.timeline.waiting, at_ < x.1)
    (hbusy : c.timeline.shared.busy = true) :
    (c.enter plan at_).Orderly total ran passed base at_ := by
  have hbegin := Call.begin_of_busy plan.surroundings plan.health.policy hbusy
  have hruns : (c.enter plan at_).runs = c.runs ++ [⟨at_, some (.skipped, at_)⟩] := by
    rw [Chronicle.enter, hbegin]
    rfl
  have htimeline : (c.enter plan at_).timeline = { c.timeline with
      task := .ticking (at_ + plan.health.checkIntervalMs)
      shared := ⟨true, Cycle.passed plan.surroundings c.timeline.shared.world⟩ } := by
    simp only [Chronicle.enter, Timeline.enter, hbegin]
  cases h.phase with
  | idle _ flag => exact absurd (hbusy.symm.trans flag) nofun
  | @busy wake rest waiting flag later skipped judged =>
    refine h.snoc rfl (fun _ => by simp [Run.endedBy]) hruns
      (.busy (by rw [htimeline, waiting]) (by rw [htimeline]) later ?_ judged) ?_ ?_ ?_
    · have hafter : at_ < wake := hwake (wake, rest) (by simp [waiting])
      rw [hruns]
      intro r hr hskip
      obtain hr | hr := List.mem_append.1 hr
      · exact skipped r hr hskip
      · obtain rfl := List.mem_singleton.1 hr
        exact hafter
    · rw [htimeline]
      rfl
    · exact ⟨fun _ => h.exists_open (by rw [waiting]; rfl) at_, fun _ => rfl⟩
    · rw [htimeline]
      exact hgauge.passed _

/-- A call that begins while none is in progress runs the checks. -/
theorem Orderly.enter_of_idle (hgauge : Gauge plan total ran passed)
    (h : c.Orderly total ran passed base at_) (hlater : ∀ r ∈ c.runs, r.tick < at_)
    (hidle : c.timeline.waiting = []) (hflag : c.timeline.shared.busy = false) :
    (c.enter plan at_).Orderly total ran passed base at_ := by
  have hfair : ∀ r : Run, r.tick = at_ → r.isSkipped = false →
      (r.isSkipped = true ↔ ∃ x ∈ c.runs, x.isSkipped = false ∧ x.endedBy r.tick = false) := by
    intro r htick hran
    rw [hran, htick]
    refine ⟨fun hskipped => absurd hskipped Bool.false_ne_true, ?_⟩
    rintro ⟨x, hx, -, hopen⟩
    exact absurd (hopen.symm.trans (h.endedBy_of_idle hidle hx)) Bool.false_ne_true
  have hbegin := Call.begin_of_idle plan.surroundings plan.health.policy hflag
  obtain ⟨hsteps, hjudged⟩ :=
    (hgauge.rest (Cycle.opened plan.surroundings c.timeline.shared.world)).advance
  generalize ((Cycle.rest plan.surroundings.home plan.health.policy).within
    plan.surroundings).advance (Cycle.opened plan.surroundings c.timeline.shared.world) = reached
    at hbegin hsteps hjudged
  obtain ⟨progress, world⟩ := reached
  have htotal : total world = total c.timeline.shared.world + ran := by
    rw [Process.same_of_steps hsteps, hgauge.opened]
  cases progress with
  | ended outcome =>
    have houtcome : outcome ≠ .skipped := hjudged
    have hran : Run.isSkipped ⟨at_, some (outcome, at_)⟩ = false := by
      simp [Run.isSkipped, houtcome]
    have hruns : (c.enter plan at_).runs = c.runs ++ [⟨at_, some (outcome, at_)⟩] := by
      rw [Chronicle.enter, hbegin]
      rfl
    have htimeline : (c.enter plan at_).timeline = { c.timeline with
        task := .ticking (at_ + plan.health.checkIntervalMs), shared := ⟨false, world⟩ } := by
      simp only [Chronicle.enter, Timeline.enter, hbegin, Call.hold]
    refine h.snoc rfl (fun _ => by simp [Run.endedBy]) hruns
      (.idle (by rw [htimeline, hidle]) (by rw [htimeline])) ?_ (hfair _ rfl hran) ?_
    · rw [htimeline]
      rfl
    · rw [htimeline, hran]
      exact htotal
  | waiting ms rest =>
    have hruns : (c.enter plan at_).runs = c.runs ++ [⟨at_, none⟩] := by
      rw [Chronicle.enter, hbegin]
      rfl
    have htimeline : (c.enter plan at_).timeline = { c.timeline with
        task := .ticking (at_ + plan.health.checkIntervalMs)
        waiting := [(at_ + ms, rest)], shared := ⟨true, world⟩ } := by
      simp only [Chronicle.enter, Timeline.enter, hbegin, Call.hold, hidle, List.nil_append]
    refine h.snoc (r := ⟨at_, none⟩) rfl (fun hclosed => absurd hclosed.symm Bool.false_ne_true)
      hruns (.busy (by rw [htimeline]) (by rw [htimeline]) (Nat.le_add_right at_ ms) ?_
        fun s => hjudged s trivial) ?_ (hfair _ rfl rfl) ?_
    · rw [hruns]
      intro r hr hskip
      obtain hr | hr := List.mem_append.1 hr
      · exact Nat.lt_of_lt_of_le (hlater r hr) (Nat.le_add_right at_ ms)
      · obtain rfl := List.mem_singleton.1 hr
        cases hskip
    · rw [htimeline, hidle]
      rfl
    · rw [htimeline]
      exact htotal

/-- **A tick leads to one run**, after the calls have gone on up to it. -/
theorem Orderly.tick (hgauge : Gauge plan total ran passed)
    (h : c.Orderly total ran passed base n) (hn : n ≤ at_) (hlater : ∀ r ∈ c.runs, r.tick < at_) :
    (c.tick plan at_).Orderly total ran passed base at_ := by
  have hcarried := h.carry hn
  have hbefore : ∀ r ∈ (c.carry at_).runs, r.tick < at_ := by
    simpa [Chronicle.carry] using hlater
  have htick : c.tick plan at_ = (c.carry at_).enter plan at_ := rfl
  rw [htick]
  cases hcarried.phase with
  | idle waiting flag => exact hcarried.enter_of_idle hgauge hbefore waiting flag
  | busy _ flag =>
    exact hcarried.enter_of_busy hgauge (fun _ hx => Timeline.lt_of_mem_carryCalls hx) flag

/-- Ticks come one after another, each of them with its run. -/
theorem Orderly.ticks (hgauge : Gauge plan total ran passed)
    (hinterval : 0 < plan.health.checkIntervalMs) {count : Nat}
    (h : c.Orderly total ran passed base n) (hn : n ≤ at_) (hlater : ∀ r ∈ c.runs, r.tick < at_)
    (hlimit : ∀ i < count, at_ + i * plan.health.checkIntervalMs ≤ limit) (hstart : n ≤ limit) :
    ∃ m ≤ limit, (c.ticks plan count at_).Orderly total ran passed base m := by
  induction count generalizing c n at_ with
  | zero => exact ⟨n, hstart, h⟩
  | succ count ih =>
    have htick := h.tick hgauge hn hlater
    refine ih htick (Nat.le_add_right _ _) (fun r hr => ?_) (fun i hi => ?_) ?_
    · exact Nat.lt_of_le_of_lt (htick.past r hr).1 (Nat.lt_add_of_pos_right hinterval)
    · have hnext := hlimit (i + 1) (Nat.succ_lt_succ hi)
      rw [Nat.succ_mul] at hnext
      omega
    · simpa using hlimit 0 (Nat.succ_pos count)

variable {start : Nat}

/-- **The runs are in order after a time that passes.** -/
theorem Orderly.sleep (hgauge : Gauge plan total ran passed)
    (hinterval : 0 < plan.health.checkIntervalMs) (ms : Nat) (hpunctual : c.Punctual plan start)
    (h : c.Orderly total ran passed base c.timeline.now) :
    (c.sleep plan ms).Orderly total ran passed base (c.timeline.now + ms) := by
  obtain ⟨hpolled, ⟨task, hpoll⟩, hnext⟩ := hpunctual.poll hinterval
  have horderly : (c.poll plan).Orderly total ran passed base c.timeline.now :=
    h.of_same rfl (by rw [hpoll]) (by rw [hpoll]) (by rw [hpoll])
  have hticks : ∀ i < Timeline.tickCount (plan.instant start (c.poll plan).runs.length)
      plan.health.checkIntervalMs (c.timeline.now + ms),
      plan.instant start (c.poll plan).runs.length + i * plan.health.checkIntervalMs ≤
        c.timeline.now + ms := fun i hi => (Timeline.lt_tickCount hinterval).1 hi
  obtain ⟨m, hm, hticked⟩ := horderly.ticks hgauge hinterval hnext
    (fun r hr => hpolled.tick_lt hinterval hr) hticks (Nat.le_add_right _ _)
  rw [Chronicle.sleep]
  simp only [hpolled.next]
  exact hticked.carry hm

/-- **The runs are in order at every instant of a schedule**, if others leave the quantity alone. -/
theorem Orderly.pass (hgauge : Gauge plan total ran passed)
    (hinterval : 0 < plan.health.checkIntervalMs) (stretches : List (Nat × (σ → σ)))
    (hothers : ∀ a ∈ stretches, ∀ w, total (a.2 w) = total w) (hpunctual : c.Punctual plan start)
    (h : c.Orderly total ran passed base c.timeline.now) :
    (c.pass plan stretches).Orderly total ran passed base (c.pass plan stretches).timeline.now := by
  induction stretches generalizing c with
  | nil => exact h
  | cons a stretches ih =>
    obtain ⟨hfirst, hrest⟩ := List.forall_mem_cons.1 hothers
    have hsleep := h.sleep hgauge hinterval a.1 hpunctual
    rw [← Timeline.now_sleep plan, ← timeline_sleep] at hsleep
    exact ih hrest (hpunctual.stretch hinterval a) (hsleep.of_same rfl rfl rfl (hfirst _))

end Chronicle

end Upkeep
