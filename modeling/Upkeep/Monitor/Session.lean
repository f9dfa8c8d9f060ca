import Upkeep.Console
import Upkeep.Endpoint
import Upkeep.Monitor
import Upkeep.Schedule
import Upkeep.Settings.Source

/-!
# A session of the program

A session goes from the choice of the settings to the end of the program: the settings are
looked for, the cluster is set up, the endpoint and the schedule start, and once the program
is asked to end, the schedule is cancelled and ends.  `Session.console` gives the lines that a
session writes if it is asked to end as soon as a given text was written.
-/

namespace Upkeep

namespace Settings.Choice

/-- What is put on record about the choice of settings. -/
def reports (c : Choice) : List Report :=
  (c.rejected.map fun (path, problem) => .settingsRejected path problem.message) ++
    [c.path?.elim .defaultSettings .settingsLoaded]

end Settings.Choice

/-- What a session meets with and its settings do not decide. -/
structure Circumstances where
  /-- The delay before the first cycle, in milliseconds. -/
  firstDelayMs : Nat
  /-- Why the endpoint could not listen at its address, if it could not. -/
  endpointProblem? : Option String := none
  deriving Repr, DecidableEq

namespace Session

/-- What is put on record about the start of the endpoint. -/
def endpointReports (s : Settings) (c : Circumstances) : List Report :=
  if s.endpoint.enabled then
    match Endpoint.address s.endpoint.listenAddress with
    | .ok a => [c.endpointProblem?.elim (.endpointListening a.render) .endpointFailed]
    | .error problem => [.endpointFailed problem]
  else []

/-- The plan of the schedule of a session. -/
def plan (s : Settings) (c : Circumstances) : SchedulePlan MonitorWorld where
  surroundings := Monitor.surroundings s
  health := s.health
  firstDelayMs := c.firstDelayMs

/-- Puts lines on record. -/
def record (reports : List Report) (t : Timeline MonitorWorld) : Timeline MonitorWorld :=
  { t with shared.world := reports.foldl (fun w r => w.report r) t.shared.world }

/-- The lines that a filter lets through of those on record. -/
def lines (f : Filter) (t : Timeline MonitorWorld) : List String :=
  f.show t.shared.world.journal.reports.toList

/-- A session at the instant at which everything has started. -/
def started (choice : Settings.Choice) (c : Circumstances) : Timeline MonitorWorld :=
  let s := choice.settings
  let w : MonitorWorld :=
    { directory := Directory.create s.node.name .online, own := { loopback := s.loopback } }
  let w := (choice.reports.foldl (fun w r => w.report r) w).performAll s.seeding
  let t : Timeline MonitorWorld := { shared := { world := w } }
  let t := record [.monitorStarted s.node.name s.cluster.databases.length s.cluster.peers.length] t
  record (endpointReports s c) (t.start (plan s c))

/-- The next instant at which something happens. -/
def nextInstant? (t : Timeline MonitorWorld) : Option Nat :=
  let tick? := match t.task with
    | .delaying next | .ticking next => some next
    | _ => none
  t.waiting.foldl (fun best (wake, _) => some (best.elim wake (min wake))) tick?

/-- Whether a text is part of another. -/
def isPart (text : List Char) : List Char → Bool
  | [] => text.isEmpty
  | c :: rest => text.isPrefixOf (c :: rest) || isPart text rest

/-- Lets time pass from one happening to the next, at most `steps` times, until a text was
written. -/
def runUntil (plan : SchedulePlan MonitorWorld) (f : Filter) (text : String) :
    (steps : Nat) → Timeline MonitorWorld → Timeline MonitorWorld
  | 0, t => t
  | steps + 1, t =>
    if (lines f t).any fun line => isPart text.toList line.toList then t
    else
      let t := t.poll plan
      match nextInstant? t with
      | none => t
      | some next => runUntil plan f text steps (t.sleep plan (next - t.now))

/-- How many happenings are waited for at most. -/
def patience : Nat := 1000

/-- The end of a session. -/
def finish (plan : SchedulePlan MonitorWorld) (t : Timeline MonitorWorld) :
    Timeline MonitorWorld :=
  (((record [.shutdownRequested] t).cancel).join plan).2

/-- The lines of a session that is asked to end once a text was written, or at once.  The
first delay is the middle one of those that may be drawn. -/
def console (read : String → FileContent) (f : Filter) (awaited : Option String) :
    List String :=
  let choice := Settings.choose read Settings.paths
  let c : Circumstances := { firstDelayMs := choice.settings.health.middleDelayMs }
  let p := plan choice.settings c
  let t := started choice c
  let t := match awaited with
    | none => t
    | some text => runUntil p f text patience t
  lines f (finish p t)

end Session

end Upkeep
