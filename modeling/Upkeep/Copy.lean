/-!
# Database copies and the nodes that hold them

A cluster has nodes, which are its members, and databases, of which each node may hold a copy.
A copy is named by a `CopyKey`: the node and the database.  `CopyKey.render` writes the key
under which the cluster's configuration map keeps the status of the copy.
-/

namespace Upkeep

/-- The name of a node. -/
abbrev Node := String

/-- The name of a database. -/
abbrev Database := String

/-- The standing of a node in the cluster. -/
inductive MemberStatus
  /-- The node is joining and not yet trusted with repairs. -/
  | starting
  /-- The node is a full member. -/
  | online
  /-- The node left or was cut off. -/
  | offline
  /-- The node was taken out of the cluster's configuration. -/
  | removed
  deriving Repr, DecidableEq, Inhabited

namespace MemberStatus

/-- The word written for a standing. -/
def word : MemberStatus → String
  | starting => "STARTING"
  | online => "ONLINE"
  | offline => "OFFLINE"
  | removed => "REMOVED"

/-- The standing that a word stands for. -/
def ofWord? : String → Option MemberStatus
  | "STARTING" => some starting
  | "ONLINE" => some online
  | "OFFLINE" => some offline
  | "REMOVED" => some removed
  | _ => none

/-- Only a full member may repair copies or demote those of others. -/
def isOnline (s : MemberStatus) : Bool := s = online

theorem ofWord?_word (s : MemberStatus) : ofWord? s.word = some s := by cases s <;> rfl

end MemberStatus

/-- The availability of one copy of a database. -/
inductive CopyStatus
  /-- The copy is current and serves reads. -/
  | online
  /-- The copy is stale or cannot be reached. -/
  | offline
  /-- The copy is being installed from another node. -/
  | synchronizing
  /-- The copy is being backed up. -/
  | backup
  deriving Repr, DecidableEq, Inhabited

namespace CopyStatus

/-- The word written for an availability. -/
def word : CopyStatus → String
  | online => "ONLINE"
  | offline => "OFFLINE"
  | synchronizing => "SYNCHRONIZING"
  | backup => "BACKUP"

/-- The availability that a word stands for. -/
def ofWord? : String → Option CopyStatus
  | "ONLINE" => some online
  | "OFFLINE" => some offline
  | "SYNCHRONIZING" => some synchronizing
  | "BACKUP" => some backup
  | _ => none

theorem ofWord?_word (s : CopyStatus) : ofWord? s.word = some s := by cases s <;> rfl

end CopyStatus

/-- The name of one copy: a node and a database. -/
structure CopyKey where
  /-- The node that holds the copy. -/
  node : Node
  /-- The database that is copied. -/
  database : Database
  deriving Repr, DecidableEq, Inhabited

namespace CopyKey

/-- The key of the copy's status in the configuration map. -/
def render (k : CopyKey) : String := "dbstatus." ++ k.node ++ "." ++ k.database

/-- Keys are ordered by node, then by database, each by code points. -/
def le (a b : CopyKey) : Bool :=
  a.node < b.node || (a.node == b.node && !(b.database < a.database))

/-- Sorts keys; equal keys stay beside each other in the order given. -/
def sort (keys : List CopyKey) : List CopyKey := keys.mergeSort le

/-- Drops every key that equals the one before it, so each key of a sorted list stays once. -/
def dropRepeats : List CopyKey → List CopyKey
  | [] => []
  | k :: rest =>
    match dropRepeats rest with
    | [] => [k]
    | k' :: rest' => if k = k' then k' :: rest' else k :: k' :: rest'

end CopyKey

end Upkeep
