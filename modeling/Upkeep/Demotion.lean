import Upkeep.Program

/-!
# Demotion of a silent peer

A peer that missed a heartbeat is looked at once more before anything is done to it: only a
copy that is still online is set offline, and only if the settings allow this node to do so.
-/

namespace Upkeep

/-- What was decided about a silent peer. -/
inductive Demotion
  /-- Its copy was set offline. -/
  | demoted
  /-- Its copy is online, but the settings do not let this node set it offline. -/
  | suppressed
  /-- Its copy is not online, so there is nothing to do. -/
  | notOnline
  deriving Repr, DecidableEq

/-- The word for a decision. -/
def Demotion.word : Demotion → String
  | demoted => "Demoted"
  | suppressed => "Suppressed"
  | notOnline => "NotOnline"

/-- A decision about a silent peer. -/
structure PeerDemotion where
  /-- The database whose heartbeat the peer missed. -/
  database : Database
  /-- The peer. -/
  peer : Node
  /-- What was decided. -/
  outcome : Demotion
  deriving Repr, DecidableEq

/-- What happens to a peer that missed a heartbeat. -/
structure DemotionPolicy where
  /-- Whether this node may set copies of its peers offline. -/
  canOffline : Bool
  /-- How long peers have to answer. -/
  timeoutMs : Nat
  deriving Repr, DecidableEq

namespace DemotionPolicy

/-- Decides about a peer that missed the heartbeat of a database. -/
def apply (policy : DemotionPolicy) (home : Node) (database : Database) (peer : Node) :
    Check Demotion := do
  if (← Check.status ⟨peer, database⟩) = some .online then
    if policy.canOffline then
      Check.report (.peerDemoted home peer database policy.timeoutMs)
      Check.setStatus ⟨peer, database⟩ .offline
      Check.count (.demotions "demoted")
      return .demoted
    else
      Check.report (.demotionSuppressed home peer database policy.timeoutMs)
      Check.count (.demotions "suppressed")
      return .suppressed
  else
    return .notOnline

end DemotionPolicy

end Upkeep
