/-!
# The checks of a cycle and how a cycle ends
-/

namespace Upkeep

/-- The checks of a cycle, in the order in which they run. -/
inductive CheckName
  /-- Repair of local copies that are offline. -/
  | repair
  /-- Report of local copies without a status. -/
  | audit
  /-- Heartbeat of the peers and demotion of the silent ones. -/
  | stall
  deriving Repr, DecidableEq

/-- The name under which failures of a check are reported and counted. -/
def CheckName.label : CheckName → String
  | repair => "server_status"
  | audit => "database_statuses"
  | stall => "server_in_stall"

theorem CheckName.label_injective {a b : CheckName} (h : a.label = b.label) : a = b := by
  cases a <;> cases b <;> simp [label] at h <;> rfl

/-- How one call of the cycle ended. -/
inductive CycleOutcome
  /-- Every check ran; some may have failed. -/
  | completed
  /-- The cluster is shutting down and the checks that were left did not run. -/
  | interrupted
  /-- Another cycle was still running. -/
  | skipped
  deriving Repr, DecidableEq

/-- The word for an outcome. -/
def CycleOutcome.word : CycleOutcome → String
  | completed => "Completed"
  | interrupted => "Interrupted"
  | skipped => "Skipped"

end Upkeep
