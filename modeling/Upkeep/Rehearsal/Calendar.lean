import Upkeep.Rehearsal.Step
import Upkeep.Schedule

/-!
# Rehearsing the schedule

The schedule of cycles in simulated time, with steps of a rehearsal between the sleeps.
-/

namespace Upkeep

/-- A step of a rehearsal of the schedule. -/
inductive CalendarStep
  /-- Starts the schedule. -/
  | start
  /-- Lets a time pass, in milliseconds. -/
  | sleep (ms : Nat)
  /-- Cancels the schedule. -/
  | cancel
  /-- Awaits the end of the schedule. -/
  | join
  /-- Changes the stage: a script, or the directory by an operation. -/
  | change (step : Step)
  /-- Does nothing. -/
  | idle

/-- What a step of a rehearsal of the schedule tells. -/
inductive CalendarFinding
  /-- Nothing to tell. -/
  | nothing
  /-- The schedule ended, as it should or by a crash. -/
  | joined (asItShould : Bool)
  /-- The answer to an operation on the directory. -/
  | answered (answer : Except ClusterFailure Answer)

/-- What can be seen after a step: the calls and counts are those since the beginning. -/
structure CalendarResult where
  /-- What the step tells. -/
  finding : CalendarFinding
  /-- How often the installer was called. -/
  installs : Nat
  /-- How often the transport was called. -/
  rounds : Nat
  /-- What was counted. -/
  gained : List (Counter × Nat)
  /-- Every status entry. -/
  statuses : Except ClusterFailure (List (CopyKey × CopyStatus))
  /-- Whether a call of the cycle is running. -/
  running : Bool
  /-- The lines on record in this step. -/
  reports : List Report

namespace CalendarStep

/-- What a step of a rehearsal of the loop tells here. -/
def findingOf : StepResult → CalendarFinding
  | .answered answer => .answered answer
  | .changed | .ran .. => .nothing

/-- Does a step. -/
def play (r : Rehearsal) (plan : SchedulePlan Stage) :
    CalendarStep → Timeline Stage → CalendarFinding × Timeline Stage
  | start, t => (.nothing, t.start plan)
  | sleep ms, t => (.nothing, t.sleep plan ms)
  | cancel, t => (.nothing, t.cancel)
  | join, t =>
    match t.join plan with
    | (some asItShould, t) => (.joined asItShould, t)
    | (none, t) => (.nothing, t)
  | change step, t =>
    let (result, shared) := r.play step t.shared
    (findingOf result, { t with shared := shared })
  | idle, t => (.nothing, t)

/-- Forgets the lines on record. -/
def forgetReports (t : Timeline Stage) : Timeline Stage :=
  { t with shared.world.journal.reports := .empty }

/-- What can be seen of a timeline. -/
def observe (finding : CalendarFinding) (before : Tally) (t : Timeline Stage) :
    CalendarResult where
  finding := finding
  installs := t.shared.world.own.installs.size
  rounds := t.shared.world.own.rounds.size
  gained := before.growth t.shared.world.journal.tally
  statuses := t.shared.world.directory.snapshot
  running := t.shared.busy
  reports := t.shared.world.journal.reports.toList

/-- Does steps one after another; `before` are the counts at the beginning. -/
def playAll (r : Rehearsal) (plan : SchedulePlan Stage) (before : Tally) :
    List CalendarStep → Timeline Stage → List CalendarResult
  | [], _ => []
  | step :: rest, t =>
    let (finding, t) := step.play r plan (forgetReports t)
    observe finding before t :: playAll r plan before rest t

end CalendarStep

end Upkeep
