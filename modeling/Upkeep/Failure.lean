import Upkeep.Copy

/-!
# What can go wrong

`ClusterFailure` lists the causes for which a call to the cluster fails, each with its text.
A call can also be cut short by a crash of the code behind it; `Abort` is either of the two.
-/

namespace Upkeep

/-- Why a call to the cluster failed. -/
inductive ClusterFailure
  /-- The layer that coordinates the cluster is shutting down. -/
  | transportClosed
  /-- A request reached none of the nodes that it was sent to. -/
  | allUnreachable (database : Database)
  /-- A copy could not be installed. -/
  | install (database : Database) (reason : String)
  /-- The transport failed for a reason of its own. -/
  | transport (message : String)
  /-- A check crashed. -/
  | checkCrashed (message : String)
  deriving Repr, DecidableEq, Inhabited

namespace ClusterFailure

/-- The text of a failure. -/
def message : ClusterFailure → String
  | transportClosed => "Cluster transport is not active"
  | allUnreachable database =>
    "No server responded to the request (db=" ++ database ++ ")"
  | install database reason =>
    "Install of database '" ++ database ++ "' failed: " ++ reason
  | transport message => "Transport error: " ++ message
  | checkCrashed message => "Check panicked: " ++ message

/-- Whether the failure says that the cluster is shutting down. -/
def isTransportClosed (e : ClusterFailure) : Bool := e = transportClosed

end ClusterFailure

/-- How a call can end without an answer. -/
inductive Abort
  /-- The call reported a failure. -/
  | failure (e : ClusterFailure)
  /-- The code behind the call crashed; what it left behind may be a text or not. -/
  | crash (payload : Option String)
  deriving Repr, DecidableEq, Inhabited

namespace Abort

/-- The text reported for a crash. -/
def crashText (payload : Option String) : String := payload.getD "unknown panic"

/-- A crash reported as a failure of the check in which it happened. -/
def toFailure : Abort → ClusterFailure
  | failure e => e
  | crash payload => .checkCrashed (crashText payload)

end Abort

/-- What a call to the cluster gives back. -/
abbrev Reply (α : Type) := Except Abort α

end Upkeep
