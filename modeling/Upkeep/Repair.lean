import Upkeep.Directory
import Upkeep.Program

/-!
# Repair of local copies

The repair check brings back every local copy that is offline.  If no peer serves the
database, the local copy is the last one and is taken as the good one; otherwise a copy is
installed from the first peer that serves it.  A copy that cannot be installed stays offline
until the next cycle, and the databases after it are still tried.
-/

namespace Upkeep

/-- The nodes other than the home node that serve a database. -/
def Check.onlinePeers (home : Node) (database : Database) : Check (List Node) := do
  return Directory.withoutHome home (← onlineNodes database)

/-- How the recovery of a copy ended. -/
inductive RecoveryOutcome
  /-- No peer served the database, so the local copy went online as it was. -/
  | promotedLastCopy
  /-- A copy was installed from a peer and is online. -/
  | recovered (source : Node)
  /-- No copy could be installed from a peer. -/
  | failed (source : Node) (reason : String)
  deriving Repr, DecidableEq

/-- The recovery of one database. -/
structure RecoveryAttempt where
  /-- The database. -/
  database : Database
  /-- How its recovery ended. -/
  outcome : RecoveryOutcome
  deriving Repr, DecidableEq

/-- Whether the local copy is online after the attempt. -/
def RecoveryAttempt.isOnline (a : RecoveryAttempt) : Bool :=
  match a.outcome with
  | .failed _ _ => false
  | .promotedLastCopy | .recovered _ => true

namespace Repair

/-- Why an install did not bring a current copy, if it did not. -/
def failureReason : Reply Bool → Option String
  | .ok true => none
  | .ok false => some "install returned false"
  | .error (.failure e) => some e.message
  | .error (.crash payload) => some ("install panicked: " ++ Abort.crashText payload)

/-- Installs a copy and sets it online. -/
def install (home : Node) (source : InstallSource) : Check RecoveryOutcome := do
  Check.report (.recoveryStarted home source.node source.database)
  match failureReason (← Check.install source) with
  | none =>
    Check.setStatus ⟨home, source.database⟩ .online
    Check.report (.recoveryCompleted home source.database)
    Check.count (.recoveries "recovered")
    return .recovered source.node
  | some reason =>
    Check.report (.recoveryFailed home source.database reason)
    Check.count (.recoveries "failed")
    return .failed source.node reason

/-- Sets the last copy of a database online. -/
def promote (home : Node) (database : Database) : Check RecoveryOutcome := do
  Check.report (.lastCopyTaken home database)
  Check.setStatus ⟨home, database⟩ .online
  Check.count (.recoveries "promoted")
  return .promotedLastCopy

/-- Recovers the local copy of a database that has become offline. -/
def recover (home : Node) (database : Database) : Check RecoveryAttempt := do
  match ← Check.onlinePeers home database with
  | [] => return ⟨database, ← promote home database⟩
  | first :: others =>
    return ⟨database, ← install home ⟨database, first, first :: others⟩⟩

/-- Recovers the local copy of a database if it is offline. -/
def repairDatabase (home : Node) (database : Database) : Check (List RecoveryAttempt) := do
  if (← Check.status ⟨home, database⟩) = some .offline then
    return [← recover home database]
  else
    return []

/-- The repair check: one attempt for each hosted database whose local copy is offline. -/
def check (home : Node) : Check (List RecoveryAttempt) := do
  let standing ← Check.homeStatus
  if standing.isOnline then
    Check.gather (repairDatabase home) (← Check.databases)
  else
    Check.report (.repairLeftOut home standing)
    return []

end Repair

end Upkeep
