import Upkeep.Cycle.Call
import Upkeep.Process.Together
import Upkeep.Rehearsal.Stage
import Upkeep.Settings

/-!
# Steps of a rehearsal

A rehearsal is a list of steps on one stage.  `Step.play` does a step and tells what came of
it, and `Observation` is what can be seen beside that: the time that passed, the calls that
the collaborators got, what was counted and written, and the lines on record.
-/

namespace Upkeep

/-- What a step of a rehearsal found. -/
inductive Finding
  /-- Nothing to tell. -/
  | nothing
  /-- Recoveries. -/
  | recoveries (attempts : List RecoveryAttempt)
  /-- Databases without a local status. -/
  | missing (databases : List Database)
  /-- Decisions about silent peers. -/
  | demotions (decisions : List PeerDemotion)
  /-- One decision. -/
  | decision (d : Demotion)
  /-- How a cycle ended. -/
  | outcome (o : CycleOutcome)
  /-- How several calls of a cycle ended. -/
  | outcomes (list : List CycleOutcome)
  deriving Repr, DecidableEq

/-- What can be seen of a stage after a step. -/
structure Observation where
  /-- The time that the step took, in milliseconds. -/
  elapsedMs : Nat
  /-- The calls of the installer. -/
  installs : List InstallSource
  /-- The calls of the transport. -/
  rounds : List RoundCall
  /-- The calls of the probes. -/
  probed : List ProbeCall
  /-- What was counted. -/
  gained : List (Counter × Nat)
  /-- Every status entry. -/
  statuses : Except ClusterFailure (List (CopyKey × CopyStatus))
  /-- How many statuses have been written so far. -/
  writes : Nat
  /-- Whether a call of the cycle is running. -/
  running : Bool
  /-- The lines on record. -/
  reports : List Report

namespace Observation

/-- What can be seen after a step that began with the counts `before`. -/
def of (before : Tally) (elapsedMs : Nat) (s : Shared Stage) : Observation where
  elapsedMs := elapsedMs
  installs := s.world.own.installs.toList
  rounds := s.world.own.rounds.toList
  probed := s.world.own.probed.toList
  gained := before.growth s.world.journal.tally
  statuses := s.world.directory.snapshot
  writes := s.world.directory.writes
  running := s.busy
  reports := s.world.journal.reports.toList

end Observation

/-- A step of a rehearsal. -/
inductive Step
  /-- Runs the repair check. -/
  | repair
  /-- Runs the audit. -/
  | audit
  /-- Runs the stall check. -/
  | stall
  /-- Decides about one peer. -/
  | judge (database : Database) (peer : Node)
  /-- Calls the cycle once. -/
  | cycle
  /-- Calls the cycle several times at the same instant. -/
  | cycles (n : Nat)
  /-- Gives the installer a behaviour. -/
  | setInstall (database? : Option Database) (b : Behaviour)
  /-- Gives the transport or its probes a behaviour. -/
  | setPeer (name? : Option String) (b : Behaviour)
  /-- Puts a peer within reach or out of it. -/
  | setReachable (peer : Node) (reachable : Bool)
  /-- Does an operation on the directory. -/
  | operate (op : Operation)

/-- What a step tells. -/
inductive StepResult
  /-- A running step: what it found, and what can be seen. -/
  | ran (finding : Reply Finding) (seen : Observation)
  /-- A change of a script. -/
  | changed
  /-- The answer to an operation. -/
  | answered (answer : Except ClusterFailure Answer)

/-- A rehearsal: where it takes place, and under which settings of the loop. -/
structure Rehearsal where
  /-- The node on which the loop runs. -/
  home : Node
  /-- The settings of the loop. -/
  health : HealthSettings

namespace Rehearsal

variable (r : Rehearsal)

/-- The directory of a rehearsal after the operations that set it up. -/
def stage (home : Node) (status : MemberStatus) (setup : List Operation) (props : Props) :
    Stage :=
  let w : Stage := { directory := Directory.create home status, own := props }
  w.performAll setup

/-- Runs a process alone on the stage. -/
def run {α : Type} (p : Process Stage (Reply α)) (finding : α → Finding) (s : Shared Stage) :
    StepResult × Shared Stage :=
  let s := { s with world := s.world.clear }
  let ((result, elapsed), world) := p.finish 0 s.world
  let after := { s with world := world }
  (.ran (result.map finding) (.of s.world.journal.tally elapsed after), after)

/-- Runs a check alone on the stage. -/
def runCheck {α : Type} (check : Check α) (finding : α → Finding) (s : Shared Stage) :
    StepResult × Shared Stage :=
  run (check.run.within (Stage.surroundings r.home)) finding s

/-- Calls the cycle a number of times at the same instant. -/
def runCycles (n : Nat) (finding : List CycleOutcome → Finding) (s : Shared Stage) :
    StepResult × Shared Stage :=
  let s := { s with world := s.world.clear }
  let ((outcomes, elapsed), after) :=
    Pool.callTogether (Stage.surroundings r.home) r.health.policy n s
  (.ran (.ok (finding outcomes)) (.of s.world.journal.tally elapsed after), after)

/-- Changes the stage between running steps. -/
def change (f : Stage → Stage) (s : Shared Stage) : StepResult × Shared Stage :=
  (.changed, { s with world := f s.world })

/-- The finding of one call of the cycle. -/
def oneOutcome : List CycleOutcome → Finding
  | [o] => .outcome o
  | os => .outcomes os

/-- Does a step: what it tells, and the stage after it. -/
def play : Step → Shared Stage → StepResult × Shared Stage
  | .repair => r.runCheck (Repair.check r.home) .recoveries
  | .audit => r.runCheck (Audit.check r.home) .missing
  | .stall => r.runCheck (Stall.check r.home r.health.policy) .demotions
  | .judge database peer => r.runCheck (r.health.policy.apply r.home database peer) .decision
  | .cycle => r.runCycles 1 oneOutcome
  | .cycles n => r.runCycles n .outcomes
  | .setInstall database? b => change (Stage.setInstall database? b)
  | .setPeer name? b => change (Stage.setPeer name? b)
  | .setReachable peer reachable => change (Stage.setReachable peer reachable)
  | .operate op => fun s =>
    let (answer, world) := s.world.perform op
    (.answered answer, { s with world := world })

/-- Does steps one after another. -/
def playAll : List Step → Shared Stage → List StepResult
  | [], _ => []
  | step :: rest, s =>
    let (result, s) := r.play step s
    result :: playAll rest s

end Rehearsal

end Upkeep
