import Upkeep.Proofs.Cycle.Exclusion
import Upkeep.Proofs.Cycle.Failing
import Upkeep.Proofs.Cycle.Vocabulary

/-!
# The executions of the checks of a cycle

An `Execution` is one check of a cycle with the state in which it began, how it ended, and the state
that it left.  `Course` says how the executions of a cycle follow one another: in the order of the
checks, each on the state that the one before left behind once its failure was put on record, up to
the first that finds the cluster shutting down.

* `Cycle.ran` : every cycle takes such a course, and between its two first notes and its last one its
  trace is made of those of the executions.
-/

namespace Upkeep

variable {σ α : Type}

theorem Abort.isTransportClosed_iff (a : Abort) :
    a.toFailure.isTransportClosed = true ↔ a = .failure .transportClosed := by
  cases a with
  | failure e => cases e <;> simp [toFailure, ClusterFailure.isTransportClosed]
  | crash payload => simp [toFailure, ClusterFailure.isTransportClosed]

namespace Cycle

/-- The check of a name; what it finds is left out. -/
def namedCheck (home : Node) (policy : DemotionPolicy) : CheckName → Check Unit
  | .repair => (fun _ => ()) <$> Repair.check home
  | .audit => (fun _ => ()) <$> Audit.check home
  | .stall => (fun _ => ()) <$> Stall.check home policy

theorem namedCheck_asks (home : Node) (policy : DemotionPolicy) (name : CheckName) :
    (namedCheck home policy name).Asks (Request.OfCheck name) := by
  cases name with
  | repair => exact Check.meets_map.2 (Repair.check_asks home)
  | audit => exact Check.meets_map.2 (Audit.check_asks home)
  | stall => exact Check.meets_map.2 (Stall.check_asks home policy)

theorem namedCheck_prompt (home : Node) (policy : DemotionPolicy) (name : CheckName) :
    (namedCheck home policy name).Prompt := by
  cases name with
  | repair => exact (Repair.check_prompt home).map _
  | audit => exact (Audit.check_prompt home).map _
  | stall => exact (Stall.check_prompt home policy).map _

/-- Runs checks one after another, up to the first that finds the cluster shutting down. -/
def checkAll (home : Node) (policy : DemotionPolicy) : List CheckName → Program CycleOutcome
  | [] => return .completed
  | name :: rest => do
    if ← guarded home name (namedCheck home policy name) then checkAll home policy rest
    else return .interrupted

theorem guarded_map {β : Type} (home : Node) (name : CheckName) (f : α → β) (c : Check α) :
    guarded home name (f <$> c) = guarded home name c := by
  have habsorb : ∀ reply : Reply α, absorb home name (reply.map f) = absorb home name reply := by
    intro reply
    cases reply <;> rfl
  simp only [guarded, ExceptT.run_map, bind_map_left, habsorb]

/-- The three checks are the checks of their names, run in order. -/
theorem checks_eq (home : Node) (policy : DemotionPolicy) :
    checks home policy = checkAll home policy [.repair, .audit, .stall] := by
  simp only [checkAll, namedCheck, guarded_map]
  rfl

end Cycle

/-- One execution of a check in a cycle. -/
structure Execution (σ : Type) where
  /-- Which check was executed. -/
  name : CheckName
  /-- The state in which it began. -/
  before : σ
  /-- How it ended. -/
  reply : Reply Unit
  /-- The state in which it ended. -/
  after : σ

namespace Execution

/-- Whether the check found the cluster shutting down. -/
def closes (x : Execution σ) : Bool := x.reply.abort? = some (.failure .transportClosed)

/-- Whether the check failed or crashed for another reason. -/
def fails (x : Execution σ) : Bool :=
  x.reply.abort?.isSome ∧ x.reply.abort? ≠ some (.failure .transportClosed)

/-- What is put on record of the failure of a check. -/
def failureNotes (home : Node) (x : Execution σ) : List Note :=
  match x.reply with
  | .ok _ => []
  | .error a =>
    if a = .failure .transportClosed then []
    else [.report (.checkFailed home x.name a.toFailure), .count (.checkErrors x.name.label)]

/-- The state once the failure of the check, if it failed, is on record. -/
def settled (e : Surroundings σ) (x : Execution σ) : σ :=
  (x.failureNotes e.home).foldl (fun s n => e.note n s) x.after

/-- The exchanges of the check. -/
def trace (e : Surroundings σ) (policy : DemotionPolicy) (x : Execution σ) : List (Exchange σ) :=
  (Cycle.namedCheck e.home policy x.name).run.trace e x.before

/-- The exchanges of the check, and those in which its failure is put on record. -/
def exchanges (e : Surroundings σ) (policy : DemotionPolicy) (x : Execution σ) :
    List (Exchange σ) :=
  x.trace e policy ++ (Cycle.absorb e.home x.name x.reply).trace e x.after

/-- The requests of the check, and the notes of its failure. -/
def requests (e : Surroundings σ) (policy : DemotionPolicy) (x : Execution σ) : List Request :=
  (x.trace e policy).map Exchange.request ++ (x.failureNotes e.home).map .note

end Execution

namespace Cycle

/-- The execution of a check that begins in a given state. -/
def execute (e : Surroundings σ) (policy : DemotionPolicy) (name : CheckName) (s : σ) :
    Execution σ where
  name := name
  before := s
  reply := ((namedCheck e.home policy name).run.outcome e s).1
  after := ((namedCheck e.home policy name).run.outcome e s).2

/-- What was told in an execution decides how it ended. -/
theorem execute_ends (e : Surroundings σ) (policy : DemotionPolicy) (name : CheckName) (s : σ) :
    (execute e policy name s).reply.Ends
      (((execute e policy name s).trace e policy).map Exchange.told) :=
  (namedCheck_prompt e.home policy name).ends s

/-- From a state on, these checks are executed so, the cycle ends with this outcome, and this is the
state then. -/
inductive Course (e : Surroundings σ) (policy : DemotionPolicy) :
    List CheckName → σ → List (Execution σ) → CycleOutcome → σ → Prop
  /-- Every check was executed. -/
  | completes (s : σ) : Course e policy [] s [] .completed s
  /-- A check finds the cluster shutting down, and the checks after it are not executed. -/
  | interrupts {name : CheckName} {rest : List CheckName} {s : σ}
      (h : (execute e policy name s).closes = true) :
      Course e policy (name :: rest) s [execute e policy name s] .interrupted
        ((execute e policy name s).settled e)
  /-- A check ends well or fails for another reason, and the next one is executed on what it left. -/
  | goesOn {name : CheckName} {rest : List CheckName} {s t : σ} {xs : List (Execution σ)}
      {outcome : CycleOutcome} (h : (execute e policy name s).closes = false)
      (hrest : Course e policy rest ((execute e policy name s).settled e) xs outcome t) :
      Course e policy (name :: rest) s (execute e policy name s :: xs) outcome t

variable {e : Surroundings σ} {policy : DemotionPolicy}

/-- What is made of the end of a check: whether the cycle goes on, and what is put on record. -/
theorem absorb_run (x : Execution σ) :
    (absorb e.home x.name x.reply).outcome e x.after = (!x.closes, x.settled e) ∧
      ((absorb e.home x.name x.reply).trace e x.after).map Exchange.request =
        (x.failureNotes e.home).map .note := by
  obtain ⟨name, before, reply, after⟩ := x
  cases reply with
  | ok a => exact ⟨rfl, rfl⟩
  | error a =>
    by_cases ha : a = .failure .transportClosed
    · subst ha
      exact ⟨rfl, rfl⟩
    · have hopen : ¬ a.toFailure.isTransportClosed = true := fun h =>
        ha (a.isTransportClosed_iff.1 h)
      have hgoes : (⟨name, before, .error a, after⟩ : Execution σ).closes = false :=
        decide_eq_false fun h => ha (Option.some.inj h)
      simp only [absorb, hgoes, Execution.settled, Execution.failureNotes, if_neg hopen, if_neg ha]
      exact ⟨rfl, rfl⟩

theorem map_exchanges (x : Execution σ) :
    (x.exchanges e policy).map Exchange.request = x.requests e policy := by
  rw [Execution.exchanges, List.map_append, (absorb_run x).2, Execution.requests]

/-- A guarded check is its execution, and what is made of its end. -/
theorem guarded_run (e : Surroundings σ) (policy : DemotionPolicy) (name : CheckName) (s : σ) :
    let x := execute e policy name s
    (guarded e.home name (namedCheck e.home policy name)).outcome e s = (!x.closes, x.settled e) ∧
      (guarded e.home name (namedCheck e.home policy name)).trace e s = x.exchanges e policy := by
  intro x
  refine ⟨?_, ?_⟩
  · rw [guarded, Program.outcome_bind]
    exact (absorb_run x).1
  · rw [guarded, Program.trace_bind]
    rfl

/-- Checks that are run one after another take a course. -/
theorem checkAll_course (e : Surroundings σ) (policy : DemotionPolicy) (names : List CheckName)
    (s : σ) :
    ∃ xs outcome t, Course e policy names s xs outcome t ∧
      (checkAll e.home policy names).outcome e s = (outcome, t) ∧
      (checkAll e.home policy names).trace e s = xs.flatMap (Execution.exchanges e policy) := by
  induction names generalizing s with
  | nil => exact ⟨[], .completed, s, .completes s, rfl, rfl⟩
  | cons name rest ih =>
    obtain ⟨houtcome, htrace⟩ := guarded_run e policy name s
    cases hx : (execute e policy name s).closes with
    | true =>
      refine ⟨_, _, _, .interrupts hx, ?_, ?_⟩
      · rw [checkAll, Program.outcome_bind, houtcome, hx]
        rfl
      · rw [checkAll, Program.trace_bind, houtcome, hx, htrace]
        rfl
    | false =>
      obtain ⟨xs, outcome, t, hcourse, houtcome', htrace'⟩ :=
        ih ((execute e policy name s).settled e)
      refine ⟨_, _, _, .goesOn hx hcourse, ?_, ?_⟩
      · rw [checkAll, Program.outcome_bind, houtcome, hx]
        exact houtcome'
      · rw [checkAll, Program.trace_bind, houtcome, hx, htrace]
        exact congrArg (_ ++ ·) htrace'

namespace Course

variable {names : List CheckName} {s t : σ} {xs : List (Execution σ)} {outcome : CycleOutcome}

/-- Every execution of a course is one of a check. -/
theorem execute_of_mem (h : Course e policy names s xs outcome t) {x : Execution σ} (hx : x ∈ xs) :
    x = execute e policy x.name x.before := by
  induction h with
  | completes s => exact nomatch hx
  | interrupts h =>
    obtain rfl := List.mem_singleton.1 hx
    rfl
  | goesOn h hrest ih =>
    obtain rfl | hx := List.mem_cons.1 hx
    · rfl
    · exact ih hx

/-- The checks are executed in their order. -/
theorem names_prefix (h : Course e policy names s xs outcome t) :
    xs.map Execution.name <+: names := by
  induction h with
  | completes s => exact List.prefix_rfl
  | @interrupts name rest s h => exact ⟨rest, rfl⟩
  | @goesOn name rest s t xs outcome h hrest ih => exact List.prefix_cons_inj name |>.2 ih

/-- **The outcome tells whether a check found the cluster shutting down.** -/
theorem outcome_eq (h : Course e policy names s xs outcome t) :
    outcome = if xs.any Execution.closes then .interrupted else .completed := by
  induction h with
  | completes s => rfl
  | interrupts h => simp [h]
  | goesOn h hrest ih => simpa [h] using ih

end Course

/-- What a cycle does that begins in a given state: its executions, its outcome, and the state once
the checks are through. -/
structure Ran (e : Surroundings σ) (policy : DemotionPolicy) (s : σ) (xs : List (Execution σ))
    (outcome : CycleOutcome) (t : σ) : Prop where
  /-- The executions follow one another. -/
  course : Course e policy [.repair, .audit, .stall] (opened e s) xs outcome t
  /-- The cycle ends with the outcome and a last note. -/
  ends : (body e.home policy).outcome e s =
    (outcome, e.note (.report (.cycleEnded e.home outcome)) t)
  /-- The trace is made of those of the executions, between two first notes and a last one. -/
  splits : ∃ first last, (body e.home policy).trace e s =
      first ++ xs.flatMap (Execution.exchanges e policy) ++ last ∧
    first.map Exchange.request = openNotes e.home ∧
    last.map Exchange.request = [.note (.report (.cycleEnded e.home outcome))]

/-- **Every cycle takes a course.** -/
theorem ran (e : Surroundings σ) (policy : DemotionPolicy) (s : σ) :
    ∃ xs outcome t, Ran e policy s xs outcome t := by
  obtain ⟨xs, outcome, t, hcourse, houtcome, htrace⟩ :=
    checkAll_course e policy [.repair, .audit, .stall] (opened e s)
  rw [← checks_eq] at houtcome htrace
  have hbody : (body e.home policy).outcome e s = (rest e.home policy).outcome e (opened e s) := rfl
  obtain ⟨first, hopen, hfirst⟩ : ∃ first : List (Exchange σ), (body e.home policy).trace e s =
      first ++ (rest e.home policy).trace e (opened e s) ∧
      first.map Exchange.request = openNotes e.home := ⟨[_, _], rfl, rfl⟩
  refine ⟨xs, outcome, t, hcourse, ?_, first,
    [e.exchange (.note (.report (.cycleEnded e.home outcome))) t], ?_, hfirst, rfl⟩
  · rw [hbody, rest, Program.outcome_bind, houtcome]
    rfl
  · rw [hopen, rest, Program.trace_bind, houtcome, htrace, List.append_assoc]
    rfl

namespace Ran

variable {s t : σ} {xs : List (Execution σ)} {outcome : CycleOutcome}

/-- **Nothing else is asked for in a cycle.** -/
theorem requests (h : Ran e policy s xs outcome t) :
    ((body e.home policy).trace e s).map Exchange.request = openNotes e.home ++
      xs.flatMap (Execution.requests e policy) ++
        [.note (.report (.cycleEnded e.home outcome))] := by
  obtain ⟨first, last, hsplit, hfirst, hlast⟩ := h.splits
  simp only [hsplit, List.map_append, hfirst, hlast, List.map_flatMap, map_exchanges]

/-- What is exchanged in an execution is exchanged in the cycle. -/
theorem mem_trace (h : Ran e policy s xs outcome t) {x : Execution σ} (hx : x ∈ xs)
    {y : Exchange σ} (hy : y ∈ x.trace e policy) : y ∈ (body e.home policy).trace e s := by
  obtain ⟨first, last, hsplit, -, -⟩ := h.splits
  rw [hsplit]
  refine List.mem_append_left _ (List.mem_append_right _ (List.mem_flatMap.2 ⟨x, hx, ?_⟩))
  exact List.mem_append_left _ hy

/-- Every exchange of a cycle is one of an execution, or puts something on record. -/
theorem mem_cases (h : Ran e policy s xs outcome t) {y : Exchange σ}
    (hy : y ∈ (body e.home policy).trace e s) :
    (∃ n, y.request = .note n) ∨ ∃ x ∈ xs, y ∈ x.trace e policy := by
  obtain ⟨first, last, hsplit, hfirst, hlast⟩ := h.splits
  have hnote : ∀ {l : List (Exchange σ)} {ns : List Request}, l.map Exchange.request = ns →
      (∀ r ∈ ns, ∃ n, r = .note n) → y ∈ l → ∃ n, y.request = .note n :=
    fun hl hns hy => hns _ (hl ▸ List.mem_map_of_mem hy)
  rw [hsplit, List.mem_append, List.mem_append] at hy
  obtain (hy | hy) | hy := hy
  · exact .inl (hnote hfirst (by simp [openNotes]) hy)
  · obtain ⟨x, hx, hy⟩ := List.mem_flatMap.1 hy
    obtain hy | hy := List.mem_append.1 hy
    · exact .inr ⟨x, hx, hy⟩
    · exact .inl (hnote (absorb_run x).2 (by simp) hy)
  · exact .inl (hnote hlast (by simp) hy)

end Ran

end Cycle

end Upkeep
