import Upkeep.Program

/-!
# Audit of the local statuses

The audit reports every hosted database whose local copy has no status.  It only reads: a
missing status points at a part of the system that failed to register it, and is never taken
for offline.
-/

namespace Upkeep

namespace Audit

/-- Reports a database if its local copy has no status. -/
def auditDatabase (home : Node) (database : Database) : Check (List Database) := do
  if (← Check.status ⟨home, database⟩) = none then
    Check.report (.statusMissing home database)
    Check.count .missingStatuses
    return [database]
  else
    return []

/-- The audit: the hosted databases whose local copy has no status. -/
def check (home : Node) : Check (List Database) := do
  Check.gather (auditDatabase home) (← Check.databases)

end Audit

end Upkeep
