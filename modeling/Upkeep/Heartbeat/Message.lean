import Upkeep.Table
import Upkeep.Failure

/-!
# Heartbeat messages

A heartbeat is sent for one database.  An answer to it proves that the node that gives it is
alive and still serves that database, so a node can be up and yet miss the heartbeat of a
database that it lost.  Messages carry a number, and only an answer with the number and the
database of a message counts for it.
-/

namespace Upkeep

/-- A heartbeat message. -/
structure Ping where
  /-- The number of the message. -/
  messageId : UInt64
  /-- The database for which it is sent. -/
  database : Database
  deriving Repr, DecidableEq

/-- The answer to a heartbeat message. -/
structure Ack where
  /-- The node that answered. -/
  node : Node
  /-- The database that the node says it serves. -/
  database : Database
  /-- The number of the message that is answered. -/
  messageId : UInt64
  deriving Repr, DecidableEq

/-- The answers to a heartbeat, by the node that was asked. -/
abbrev Responses := Table Node Ack

/-- The answer that `node` sends back for a message. -/
def Ping.ack (p : Ping) (node : Node) : Ack := ⟨node, p.database, p.messageId⟩

/-- Whether an answer is one to this message. -/
def Ack.answers (a : Ack) (p : Ping) : Bool :=
  a.database = p.database && a.messageId = p.messageId

theorem Ping.ack_answers (p : Ping) (node : Node) : (p.ack node).answers p = true := by
  simp [Ping.ack, Ack.answers]

end Upkeep
