import Upkeep.Heartbeat.Loopback
import Upkeep.Rehearsal.Fault

/-!
# The stage of a rehearsal

A stage is a world whose installer and transport follow scripts.  It remembers which calls
they got, so that a rehearsal can tell.
-/

namespace Upkeep

/-- How the transport of a rehearsal works. -/
inductive TransportScript
  /-- The whole transport follows a script, by database. -/
  | scripted (s : Script)
  /-- Messages go to all peers at once, and the probes follow a script, by peer. -/
  | probes (s : Script)
  /-- Messages go to all peers at once, within the process. -/
  | loopback (l : Loopback)
  deriving Repr, DecidableEq

/-- The call of a transport. -/
structure RoundCall where
  /-- The database of the heartbeat. -/
  database : Database
  /-- The peers to be asked. -/
  peers : List Node
  /-- How long they have to answer, in milliseconds. -/
  timeoutMs : Nat
  deriving Repr, DecidableEq

/-- The call of a probe. -/
structure ProbeCall where
  /-- The peer that was asked. -/
  peer : Node
  /-- The message that was sent to it. -/
  ping : Ping
  deriving Repr, DecidableEq

/-- What the collaborators of a rehearsal keep. -/
structure Props where
  /-- The script of the installer, by database. -/
  installer : Script := {}
  /-- How the transport works. -/
  transport : TransportScript := .scripted {}
  /-- The number of the next heartbeat message. -/
  nextId : UInt64 := MessageIds.first
  /-- The faults of the directory, each with the number of calls it has counted. -/
  faults : List (Fault × Nat) := []
  /-- The calls of the installer. -/
  installs : Trail InstallSource := .empty
  /-- The calls of the transport. -/
  rounds : Trail RoundCall := .empty
  /-- The calls of the probes. -/
  probed : Trail ProbeCall := .empty

/-- The world of a rehearsal. -/
abbrev Stage := World Props

namespace Stage

variable {α : Type}

/-- Changes what the collaborators keep. -/
def adjust (f : Props → Props) (w : Stage) : Stage := { w with own := f w.own }

/-- Counts a call of the directory and lets the faults strike that are set for it; the call
itself is made if they let it. -/
def faulty (call : DirectoryCall) (answer : Stage → Reply α × Stage) (w : Stage) :
    Reply α × Stage :=
  let faults := Fault.countCall call w.own.faults
  match Fault.strike (Fault.striking call faults) (w.adjust ({ · with faults := faults })) with
  | (.ok (), w) => answer w
  | (.error a, w) => (.error a, w)

/-- The directory as the checks see it, through the faults. -/
def view : DirectoryView Stage where
  homeStatus := faulty ⟨.homeStatus, none, none, none⟩ World.view.homeStatus
  databases := faulty ⟨.databases, none, none, none⟩ World.view.databases
  status key := faulty ⟨.status, some key.node, some key.database, none⟩ (World.view.status key)
  setStatus key s :=
    faulty ⟨.setStatus, some key.node, some key.database, some s⟩ (World.view.setStatus key s)
  onlineNodes database :=
    faulty ⟨.onlineNodes, none, some database, none⟩ (World.view.onlineNodes database)

/-- The scripted installer. -/
def installer : Installer Stage := fun source => do
  let b ← Process.update fun w : Stage =>
    (w.own.installer.behaviour source.database,
      w.adjust fun p => { p with installs := p.installs.push source })
  b.process b.result

/-- The numbers of the heartbeat messages. -/
def ids : MessageIds Stage where
  next w := w.own.nextId
  setNext id := adjust ({ · with nextId := id })
  next_setNext _ _ := rfl

/-- Remembers the call of a probe. -/
def logProbe (peer : Node) (ping : Ping) (w : Stage) : Stage :=
  w.adjust fun p => { p with probed := p.probed.push ⟨peer, ping⟩ }

/-- Heartbeats to all peers at once, by scripted probes. -/
def scriptedProbes (s : Script) : FanOut Stage :=
  .numbered ids (fun peer ping w => (s.behaviour peer).probe peer ping (w.logProbe peer ping))
    World.report

/-- Heartbeats to all peers at once, within the process. -/
def loopbackProbes (l : Loopback) : FanOut Stage :=
  .numbered ids (Loopback.probe fun _ => l) World.report

/-- A round of a transport that follows a script; every responder acknowledges message 1. -/
def scriptedRound (s : Script) : Transport Stage := fun database peers _ =>
  let b := s.behaviour database
  let responders := b.responders.getD peers
  b.process (Table.ofList (responders.map fun node => (node, Ping.ack ⟨1, database⟩ node)))

/-- The transport of the rehearsal. -/
def transport : Transport Stage := fun database peers timeoutMs => do
  let script ← Process.update fun w : Stage =>
    (w.own.transport,
      w.adjust fun p => { p with rounds := p.rounds.push ⟨database, peers, timeoutMs⟩ })
  match script with
  | .scripted s => scriptedRound s database peers timeoutMs
  | .probes s => (scriptedProbes s).send database peers timeoutMs
  | .loopback l => (loopbackProbes l).send database peers timeoutMs

/-- The surroundings of the checks in a rehearsal on a node. -/
def surroundings (home : Node) : Surroundings Stage where
  home := home
  directory := view
  installer := installer
  transport := transport
  note := World.note

/-- Gives the transport's script, or that of its probes, a behaviour. -/
def setPeer (name? : Option String) (b : Behaviour) (w : Stage) : Stage :=
  w.adjust fun p =>
    { p with transport :=
      match p.transport with
      | .scripted s => .scripted (s.set name? b)
      | .probes s => .probes (s.set name? b)
      | .loopback l => .loopback l }

/-- Puts a peer within reach or out of it, where that is how the transport works. -/
def setReachable (peer : Node) (reachable : Bool) (w : Stage) : Stage :=
  w.adjust fun p =>
    { p with transport :=
      match p.transport with
      | .loopback l => .loopback (l.setReachable peer reachable)
      | other => other }

/-- Whether a peer is within reach, where that is how the transport works. -/
def isReachable (peer : Node) (w : Stage) : Bool :=
  match w.own.transport with
  | .loopback l => l.isReachable peer
  | _ => true

/-- Gives the installer a behaviour. -/
def setInstall (name? : Option String) (b : Behaviour) (w : Stage) : Stage :=
  w.adjust fun p => { p with installer := p.installer.set name? b }

/-- Forgets which calls the collaborators got, and the lines on record. -/
def clear (w : Stage) : Stage :=
  { w.adjust fun p => { p with installs := .empty, rounds := .empty, probed := .empty } with
    journal.reports := .empty }

end Stage

end Upkeep
