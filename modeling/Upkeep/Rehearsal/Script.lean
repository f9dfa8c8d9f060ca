import Upkeep.Heartbeat.FanOut
import Upkeep.World

/-!
# Scripts for collaborators

A rehearsal runs the health loop with collaborators that follow a script.  A `Behaviour` says
what happens when a collaborator is called: what it does to the directory at once, how long it
takes, what it does to the directory then, and how it ends.  A `Script` gives a behaviour to
each name, and one to all names that it does not mention.
-/

namespace Upkeep

/-- How a scripted call ends. -/
inductive Ending
  /-- It gives its answer. -/
  | answers
  /-- It fails. -/
  | fails (failure : ClusterFailure)
  /-- It crashes and leaves a text behind, or something else. -/
  | crashes (payload : Option String)
  deriving Repr, DecidableEq

/-- What the call comes to, given its answer. -/
def Ending.reply {α : Type} (answer : α) : Ending → Reply α
  | answers => .ok answer
  | fails e => .error (.failure e)
  | crashes payload => .error (.crash payload)

/-- What happens when a scripted collaborator is called. -/
structure Behaviour where
  /-- What is done to the directory at once. -/
  effects : List Operation := []
  /-- How long the call takes, in milliseconds. -/
  latencyMs : Nat := 0
  /-- What is done to the directory after that time. -/
  lateEffects : List Operation := []
  /-- How the call ends. -/
  ending : Ending := .answers
  /-- For an install: whether the copy is current. -/
  result : Bool := true
  /-- For a transport: who answers; if missing, all that were asked. -/
  responders : Option (List Node) := none
  /-- For a probe: whether it never gives a result. -/
  silent : Bool := false
  /-- For a probe: the node named in the answer, if it is not the one asked. -/
  node : Option Node := none
  /-- For a probe: the database named in the answer, if it is not the one asked for. -/
  database : Option Database := none
  /-- For a probe: what is added to the number of the message. -/
  idOffset : UInt64 := 0
  deriving Repr, DecidableEq

namespace Behaviour

variable {ρ α : Type}

/-- A call as a process that ends with `answer` unless the script says otherwise. -/
def process (b : Behaviour) (answer : α) : Process (World ρ) (Reply α) := do
  Process.modify (World.performAll b.effects)
  Process.wait b.latencyMs
  Process.modify (World.performAll b.lateEffects)
  return b.ending.reply answer

/-- The answer of a scripted probe. -/
def ack (b : Behaviour) (peer : Node) (ping : Ping) : Ack where
  node := b.node.getD peer
  database := b.database.getD ping.database
  messageId := ping.messageId + b.idOffset

/-- A call of a scripted probe. -/
def probe (b : Behaviour) : Probe (World ρ) := fun peer ping w =>
  if b.silent then (.never, w)
  else
    (.after b.latencyMs fun w =>
      (b.ending.reply (b.ack peer ping), w.performAll b.lateEffects), w.performAll b.effects)

end Behaviour

/-- A behaviour for each name. -/
structure Script where
  /-- The behaviour for all names that have none of their own. -/
  other : Behaviour := {}
  /-- The behaviours of single names. -/
  byName : Table String Behaviour := .empty
  deriving Repr, DecidableEq

namespace Script

/-- The behaviour for a name. -/
def behaviour (s : Script) (name : String) : Behaviour := (s.byName.find? name).getD s.other

/-- Gives a behaviour to a name, or to all names that have none of their own. -/
def set (s : Script) (name? : Option String) (b : Behaviour) : Script :=
  match name? with
  | none => { s with other := b }
  | some name => { s with byName := s.byName.put name b }

end Script

end Upkeep
