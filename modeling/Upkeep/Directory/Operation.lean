import Upkeep.Directory

/-!
# Operations on a directory

Everything that can be asked of a directory or done to it, as data: `Directory.perform` does
an operation and gives its answer.  Only the operations that `Operation.isFallible` names are
refused by a closed directory.
-/

namespace Upkeep

/-- Something asked of a directory or done to it. -/
inductive Operation
  /-- Adds a member or changes its standing. -/
  | enroll (node : Node) (status : MemberStatus)
  /-- Registers a hosted database. -/
  | host (database : Database)
  /-- Gives a copy a status. -/
  | setStatus (key : CopyKey) (status : CopyStatus)
  /-- Drops the status of a copy. -/
  | forget (key : CopyKey)
  /-- Shuts the directory. -/
  | close
  /-- Asks how many statuses have been written. -/
  | writes
  /-- Asks for the name of the home node. -/
  | homeName
  /-- Asks for the standing of the home node. -/
  | homeStatus
  /-- Asks for the hosted databases. -/
  | databases
  /-- Asks for the status of a copy. -/
  | status (key : CopyKey)
  /-- Asks which nodes serve a database. -/
  | onlineNodes (database : Database)
  /-- Asks which nodes other than the home node serve a database. -/
  | onlinePeers (database : Database)
  /-- Asks for every status entry. -/
  | snapshot
  deriving Repr, DecidableEq

/-- The answer to an operation. -/
inductive Answer
  /-- The operation was done and has nothing to say. -/
  | done
  /-- A number. -/
  | count (n : Nat)
  /-- A name. -/
  | name (s : String)
  /-- A list of names. -/
  | names (list : List String)
  /-- The standing of a node. -/
  | standing (status : MemberStatus)
  /-- The status of a copy, if it has one. -/
  | copy (status : Option CopyStatus)
  /-- A list of status entries. -/
  | entries (rows : List (CopyKey × CopyStatus))
  deriving Repr, DecidableEq

namespace Operation

/-- Whether a closed directory refuses the operation. -/
def isFallible : Operation → Bool
  | enroll .. | host .. | forget .. | close | writes | homeName => false
  | setStatus .. | homeStatus | databases | status .. | onlineNodes .. | onlinePeers ..
  | snapshot => true

end Operation

namespace Directory

/-- Does an operation: its answer, and the directory after it. -/
def perform (d : Directory) : Operation → Except ClusterFailure Answer × Directory
  | .enroll node status => (.ok .done, d.enroll node status)
  | .host database => (.ok .done, d.host database)
  | .setStatus key s =>
    match d.setStatus key s with
    | .ok d' => (.ok .done, d')
    | .error e => (.error e, d)
  | .forget key => (.ok .done, d.forget key)
  | .close => (.ok .done, d.close)
  | .writes => (.ok (.count d.writes), d)
  | .homeName => (.ok (.name d.home), d)
  | .homeStatus => (d.homeStatus.map .standing, d)
  | .databases => (d.databases.map .names, d)
  | .status key => ((d.status key).map .copy, d)
  | .onlineNodes database => ((d.onlineNodes database).map .names, d)
  | .onlinePeers database => ((d.onlinePeers database).map .names, d)
  | .snapshot => (d.snapshot.map .entries, d)

/-- Does operations one after another: their answers, and the directory after the last. -/
def performAll (d : Directory) :
    List Operation → List (Except ClusterFailure Answer) × Directory
  | [] => ([], d)
  | op :: ops =>
    let (answer, d') := d.perform op
    let (answers, d'') := performAll d' ops
    (answer :: answers, d'')

theorem perform_closed {d : Directory} (h : d.closed = true) {op : Operation}
    (hop : op.isFallible = true) : d.perform op = (.error .transportClosed, d) := by
  cases op <;> simp [Operation.isFallible] at hop <;>
    simp [perform, setStatus, homeStatus, databases, status, onlineNodes, onlinePeers,
      snapshot, whileOpen, h, Except.map]

end Directory

end Upkeep
