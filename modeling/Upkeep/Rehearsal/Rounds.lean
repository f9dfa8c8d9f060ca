import Upkeep.Process.Together
import Upkeep.Rehearsal.Stage

/-!
# Rehearsing heartbeats

Rounds of a transport on their own, one at a time or several side by side.
-/

namespace Upkeep

/-- One round to be sent. -/
structure RoundOrder where
  /-- The database of the heartbeat. -/
  database : Database
  /-- The peers to be asked. -/
  peers : List Node
  /-- How long they have to answer, in milliseconds. -/
  timeoutMs : Nat
  deriving Repr, DecidableEq

/-- A step of a rehearsal of heartbeats. -/
inductive RoundStep
  /-- Sends one round. -/
  | send (order : RoundOrder)
  /-- Sends several rounds side by side. -/
  | sendAll (orders : List RoundOrder)
  /-- Gives the transport or its probes a behaviour. -/
  | setPeer (name? : Option String) (b : Behaviour)
  /-- Puts a peer within reach or out of it. -/
  | setReachable (peer : Node) (reachable : Bool)
  /-- Asks whether a peer is within reach. -/
  | isReachable (peer : Node)

/-- What a step of a rehearsal of heartbeats tells. -/
inductive RoundFinding
  /-- A round ended after a time. -/
  | ended (result : Reply Responses) (elapsedMs : Nat)
  /-- Several rounds ended, each after a time. -/
  | allEnded (results : List (Reply Responses × Nat))
  /-- A script was changed. -/
  | changed
  /-- Whether a peer is within reach. -/
  | reachable (b : Bool)

/-- What a step tells, which probes were called, and the lines on record. -/
structure RoundResult where
  /-- What the step tells. -/
  finding : RoundFinding
  /-- The calls of the probes. -/
  probed : List ProbeCall
  /-- The lines on record. -/
  reports : List Report

namespace RoundStep

/-- The process of a round. -/
def process (order : RoundOrder) : Process Stage (Reply Responses) :=
  Stage.transport order.database order.peers order.timeoutMs

/-- No round pauses more often than this: once for each peer, and once for the window. -/
def pauses (orders : List RoundOrder) : Nat :=
  orders.foldl (fun n order => n + order.peers.length + 2) 0

/-- Sends rounds side by side. -/
def sendTogether (orders : List RoundOrder) (w : Stage) :
    List (Reply Responses × Nat) × Stage :=
  let (slots, w) := Slot.startAll (orders.map process) w
  let (slots, w) := Slot.resumeAll (pauses orders) slots w
  (slots.filterMap Slot.result?, w)

/-- Does a step. -/
def play : RoundStep → Stage → RoundFinding × Stage
  | send order, w =>
    let ((result, elapsed), w) := (process order).finish 0 w
    (.ended result elapsed, w)
  | sendAll orders, w =>
    let (results, w) := sendTogether orders w
    (.allEnded results, w)
  | setPeer name? b, w => (.changed, w.setPeer name? b)
  | setReachable peer reachable, w => (.changed, w.setReachable peer reachable)
  | isReachable peer, w => (.reachable (w.isReachable peer), w)

/-- Does steps one after another. -/
def playAll : List RoundStep → Stage → List RoundResult
  | [], _ => []
  | step :: rest, w =>
    let (finding, w) := step.play w.clear
    ⟨finding, w.own.probed.toList, w.journal.reports.toList⟩ :: playAll rest w

end RoundStep

end Upkeep
