import Upkeep.Cycle.Call
import Upkeep.Heartbeat.Loopback
import Upkeep.Settings
import Upkeep.World

/-!
# A cluster of one process

The monitor runs the health loop of one node in a cluster that it holds itself: the peers of
the settings, reachable or not, and a copy of every database on every node.  The copies of the
peers start online, those of the home node offline, and the loop brings them up.  A copy can be
installed from any peer that is within reach.
-/

namespace Upkeep

/-- What the installer and the transport of a monitor keep. -/
structure Peers where
  /-- Which peers are within reach. -/
  loopback : Loopback := {}
  /-- The number of the next heartbeat message. -/
  nextId : UInt64 := MessageIds.first
  deriving Repr, DecidableEq

/-- The world of a monitor. -/
abbrev MonitorWorld := World Peers

namespace Settings

/-- What makes the directory of a monitor from one that has only the home node. -/
def seeding (s : Settings) : List Operation :=
  s.cluster.peers.map (fun p => .enroll p.name .online) ++
    s.cluster.databases.flatMap fun database =>
      [.host database, .setStatus ⟨s.node.name, database⟩ .offline] ++
        s.cluster.peers.map fun p => .setStatus ⟨p.name, database⟩ .online

/-- The directory with which a monitor starts. -/
def directory (s : Settings) : Directory :=
  ((Directory.create s.node.name .online).performAll s.seeding).2

/-- Which peers are within reach when a monitor starts; the last setting for a name counts. -/
def loopback (s : Settings) : Loopback :=
  s.cluster.peers.foldl (fun l p => l.setReachable p.name p.reachable) {}

end Settings

namespace Monitor

/-- The world with which a monitor starts, with what its seeding put on record. -/
def world (s : Settings) : MonitorWorld :=
  let w : MonitorWorld :=
    { directory := Directory.create s.node.name .online, own := { loopback := s.loopback } }
  w.performAll s.seeding

/-- Installs a copy if its source is within reach. -/
def installer : Installer MonitorWorld := fun source =>
  Process.update fun w : MonitorWorld =>
    let reachable := w.own.loopback.isReachable source.node
    (.ok reachable, w.report (.installing source.database source.node reachable))

/-- The numbers of the heartbeat messages. -/
def ids : MessageIds MonitorWorld where
  next w := w.own.nextId
  setNext id w := { w with own.nextId := id }
  next_setNext _ _ := rfl

/-- Heartbeats to the peers. -/
def fanOut : FanOut MonitorWorld :=
  .numbered ids (Loopback.probe fun w => w.own.loopback) World.report

/-- The surroundings of the checks of a monitor. -/
def surroundings (s : Settings) : Surroundings MonitorWorld :=
  World.surroundings s.node.name installer fanOut.send

/-- Calls the cycle once: how it ended, and after which time. -/
def cycle (s : Settings) (shared : Shared MonitorWorld) :
    (List CycleOutcome × Nat) × Shared MonitorWorld :=
  Pool.callTogether (surroundings s) s.health.policy 1 shared

/-- Puts a peer within reach or out of it. -/
def setReachable (peer : Node) (reachable : Bool) (w : MonitorWorld) : MonitorWorld :=
  { w with own.loopback := w.own.loopback.setReachable peer reachable }

/-- Forgets the lines on record. -/
def forgetReports (w : MonitorWorld) : MonitorWorld := { w with journal.reports := .empty }

end Monitor

/-- A step of a session with a monitor. -/
inductive MonitorStep
  /-- Calls the cycle. -/
  | cycle
  /-- Puts a peer within reach or out of it. -/
  | setReachable (peer : Node) (reachable : Bool)
  /-- Does an operation on the directory. -/
  | operate (op : Operation)
  deriving Repr, DecidableEq

/-- What a step of a session with a monitor tells. -/
inductive MonitorResult
  /-- A cycle: how it ended, and what can be seen after it. -/
  | ran (outcomes : List CycleOutcome) (elapsedMs : Nat) (gained : List (Counter × Nat))
      (directory : Directory) (reports : List Report)
  /-- A peer was put within reach or out of it. -/
  | changed
  /-- The answer to an operation. -/
  | answered (answer : Except ClusterFailure Answer)

namespace MonitorStep

/-- Does a step. -/
def play (s : Settings) : MonitorStep → Shared MonitorWorld → MonitorResult × Shared MonitorWorld
  | cycle, shared =>
    let shared := { shared with world := Monitor.forgetReports shared.world }
    let ((outcomes, elapsed), after) := Monitor.cycle s shared
    (.ran outcomes elapsed (shared.world.journal.tally.growth after.world.journal.tally)
      after.world.directory after.world.journal.reports.toList, after)
  | setReachable peer reachable, shared =>
    (.changed, { shared with world := Monitor.setReachable peer reachable shared.world })
  | operate op, shared =>
    let (answer, world) := shared.world.perform op
    (.answered answer, { shared with world := world })

/-- Does steps one after another. -/
def playAll (s : Settings) : List MonitorStep → Shared MonitorWorld → List MonitorResult
  | [], _ => []
  | step :: rest, shared =>
    let (result, shared) := step.play s shared
    result :: playAll s rest shared

end MonitorStep

end Upkeep
