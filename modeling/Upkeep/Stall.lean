import Upkeep.Demotion
import Upkeep.Repair

/-!
# Search for stalled peers

For every database whose local copy is online, the stall check sends a heartbeat to all peers
that serve it and decides about those that stay silent.  If nobody answers, the home node may
be the one that is cut off, so nothing is decided in that round.
-/

namespace Upkeep

namespace Stall

/-- The answers to a round; `none` if nobody answered, in either of the two forms in which a
transport may say so.  Any other failure ends the check. -/
def answers? : Reply Responses → Reply (Option Responses)
  | .ok responses => .ok (if responses.isEmpty then none else some responses)
  | .error (.failure (.allUnreachable _)) => .ok none
  | .error a => .error a

/-- The peers that gave no answer, in the order in which they were asked. -/
def silent (peers : List Node) (responses : Responses) : List Node :=
  peers.filter fun peer => !responses.contains peer

/-- Decides about one silent peer. -/
def judge (home : Node) (policy : DemotionPolicy) (database : Database) (peer : Node) :
    Check (List PeerDemotion) := do
  return [⟨database, peer, ← policy.apply home database peer⟩]

/-- Decides about the peers that a round shows to be silent. -/
def judgeRound (home : Node) (policy : DemotionPolicy) (database : Database)
    (peers : List Node) : Option Responses → Check (List PeerDemotion)
  | none => do
    Check.report (.roundUnanswered home database)
    Check.count (.rounds "unreachable")
    return []
  | some responses => do
    let quiet := silent peers responses
    Check.count (.rounds (if quiet.isEmpty then "complete" else "partial"))
    Check.gather (judge home policy database) quiet

/-- Sends a heartbeat to the peers that serve a database and decides about the silent ones. -/
def round (home : Node) (policy : DemotionPolicy) (database : Database) (peers : List Node) :
    Check (List PeerDemotion) := do
  Check.report (.roundStarted home peers database)
  let responses? ← answers? (← Check.heartbeat database peers policy.timeoutMs)
  judgeRound home policy database peers responses?

/-- Looks for stalled peers of a database if its local copy is online. -/
def checkDatabase (home : Node) (policy : DemotionPolicy) (database : Database) :
    Check (List PeerDemotion) := do
  if (← Check.status ⟨home, database⟩) = some .online then
    match ← Check.onlinePeers home database with
    | [] => return []
    | peers => round home policy database peers
  else
    return []

/-- The stall check: the decisions about all silent peers of all hosted databases. -/
def check (home : Node) (policy : DemotionPolicy) : Check (List PeerDemotion) := do
  let standing ← Check.homeStatus
  if standing.isOnline then
    Check.gather (checkDatabase home policy) (← Check.databases)
  else
    Check.report (.stallLeftOut home standing)
    return []

theorem mem_silent {peers : List Node} {responses : Responses} {peer : Node} :
    peer ∈ silent peers responses ↔ peer ∈ peers ∧ responses.find? peer = none := by
  simp [silent, Table.contains]

end Stall

end Upkeep
