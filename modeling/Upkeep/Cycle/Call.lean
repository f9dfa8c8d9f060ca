import Upkeep.Cycle
import Upkeep.Surroundings

/-!
# Calls of a cycle

A cycle may be called while an earlier call of it is still running.  All calls share one flag:
the call that finds it down raises it and runs the checks, and a call that finds it raised
passes over.  The flag goes down where the call that raised it ends.

A `Pool` holds any number of calls; `Pool.step` lets one of them go on up to its next pause,
so a list of steps is one way in which the calls can be interleaved.
-/

namespace Upkeep

/-- What the calls of a cycle share. -/
structure Shared (σ : Type) where
  /-- Whether a call is running the checks. -/
  busy : Bool := false
  /-- The world on which the calls work. -/
  world : σ

/-- Where a call of a cycle stands. -/
inductive Call (σ : Type) : Type
  /-- The call has not begun. -/
  | fresh
  /-- The call is running the checks and waits. -/
  | running (ms : Nat) (rest : Process σ CycleOutcome)
  /-- The call has ended. -/
  | ended (outcome : CycleOutcome)

namespace Call

variable {σ : Type}

/-- A call that runs the checks keeps the flag up while it waits, and lets it down as it ends. -/
def hold : Progress σ CycleOutcome × σ → Call σ × Shared σ
  | (.ended outcome, world) => (ended outcome, ⟨false, world⟩)
  | (.waiting ms rest, world) => (running ms rest, ⟨true, world⟩)

/-- Ends a call that passes over, and leaves the flag up. -/
def passBy : Progress σ CycleOutcome × σ → Call σ × Shared σ
  | (.ended outcome, world) => (ended outcome, ⟨true, world⟩)
  | (.waiting ms rest, world) => (running ms rest, ⟨true, world⟩)

/-- A call begins. -/
def begin (e : Surroundings σ) (policy : DemotionPolicy) (s : Shared σ) : Call σ × Shared σ :=
  if s.busy then passBy (((Cycle.passOver e.home).within e).advance s.world)
  else hold (((Cycle.body e.home policy).within e).advance s.world)

/-- Lets a call go on up to its next pause. -/
def step (e : Surroundings σ) (policy : DemotionPolicy) : Call σ → Shared σ → Call σ × Shared σ
  | fresh, s => begin e policy s
  | running _ rest, s => hold (rest.advance s.world)
  | ended outcome, s => (ended outcome, s)

/-- Lets a call that has begun go on alone to its end: how it ended, after which time. -/
def finish : Call σ → Shared σ → Option (CycleOutcome × Nat) × Shared σ
  | fresh, s => (none, s)
  | running ms rest, s =>
    let ((outcome, elapsed), world) := rest.finish ms s.world
    (some (outcome, elapsed), ⟨false, world⟩)
  | ended outcome, s => (some (outcome, 0), s)

/-- Whether a call is running the checks. -/
def isRunning : Call σ → Bool
  | running .. => true
  | fresh | ended _ => false

end Call

/-- Calls of one cycle, and what they share. -/
structure Pool (σ : Type) where
  /-- What the calls share. -/
  shared : Shared σ
  /-- The calls. -/
  calls : List (Call σ)

namespace Pool

variable {σ : Type}

/-- A number of calls, none of which has begun. -/
def ofFresh (n : Nat) (s : Shared σ) : Pool σ := ⟨s, List.replicate n .fresh⟩

/-- Lets the `i`-th call go on up to its next pause. -/
def step (e : Surroundings σ) (policy : DemotionPolicy) (p : Pool σ) (i : Nat) : Pool σ :=
  match p.calls[i]? with
  | none => p
  | some call =>
    let (call, shared) := call.step e policy p.shared
    ⟨shared, p.calls.set i call⟩

/-- Lets calls go on in the order given. -/
def steps (e : Surroundings σ) (policy : DemotionPolicy) (order : List Nat) (p : Pool σ) :
    Pool σ := order.foldl (step e policy) p

/-- Lets the calls that have begun go on to their ends, one after another.  No more than one
of them can be running, so it is the only one for which time passes. -/
def finishAll : List (Call σ) → Shared σ → List (CycleOutcome × Nat) × Shared σ
  | [], s => ([], s)
  | call :: rest, s =>
    let (result?, s) := call.finish s
    let (results, s) := finishAll rest s
    (result?.toList ++ results, s)

/-- Begins a number of calls at the same instant, in order, and lets them all end: how they
ended, and the time until the last one did. -/
def callTogether (e : Surroundings σ) (policy : DemotionPolicy) (n : Nat) (s : Shared σ) :
    (List CycleOutcome × Nat) × Shared σ :=
  let p := (ofFresh n s).steps e policy (List.range n)
  let (results, s) := finishAll p.calls p.shared
  ((results.map Prod.fst, results.foldl (fun t r => max t r.2) 0), s)

end Pool

end Upkeep
