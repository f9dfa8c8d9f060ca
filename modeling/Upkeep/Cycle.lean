import Upkeep.Audit
import Upkeep.Stall

/-!
# One cycle

A cycle runs the three checks one after another.  A check that fails or crashes is reported
and counted, and the next check still runs; only a cluster that is shutting down ends the
cycle early.
-/

namespace Upkeep

namespace Cycle

/-- Takes note of how a check ended and says whether the cycle goes on. -/
def absorb (home : Node) (name : CheckName) {α : Type} : Reply α → Program Bool
  | .ok _ => return true
  | .error a =>
    if a.toFailure.isTransportClosed then
      return false
    else do
      Program.report (.checkFailed home name a.toFailure)
      Program.count (.checkErrors name.label)
      return true

/-- Runs a check and says whether the cycle goes on. -/
def guarded (home : Node) (name : CheckName) {α : Type} (check : Check α) : Program Bool := do
  absorb home name (← check.run)

/-- Runs the three checks, up to the first that finds the cluster shutting down. -/
def checks (home : Node) (policy : DemotionPolicy) : Program CycleOutcome := do
  if ← guarded home .repair (Repair.check home) then
    if ← guarded home .audit (Audit.check home) then
      if ← guarded home .stall (Stall.check home policy) then
        return .completed
  return .interrupted

/-- A cycle from its first report to its last. -/
def body (home : Node) (policy : DemotionPolicy) : Program CycleOutcome := do
  Program.report (.cycleStarted home)
  Program.count .cycles
  let outcome ← checks home policy
  Program.report (.cycleEnded home outcome)
  return outcome

/-- What a call does that finds another cycle running. -/
def passOver (home : Node) : Program CycleOutcome := do
  Program.report (.cycleSkipped home)
  Program.count .skippedCycles
  return .skipped

end Cycle

end Upkeep
