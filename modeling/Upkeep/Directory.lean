import Upkeep.Table
import Upkeep.Failure

/-!
# The directory of a cluster

A `Directory` is what one node, the home node, knows of its cluster: the members in the order
in which they joined, the databases that the home node hosts, and the status of every copy.
A closed directory answers no question about the cluster any more: every call that may fail
fails with `ClusterFailure.transportClosed`, and in particular no status can be written.
-/

namespace Upkeep

/-- What a node knows of its cluster. -/
structure Directory where
  /-- The node that keeps this directory. -/
  home : Node
  /-- The members and their standings, in the order in which they joined. -/
  members : Table Node MemberStatus
  /-- The databases that the home node hosts, in order of registration. -/
  hosted : List Database := []
  /-- The status of each copy that was ever given one. -/
  entries : Table CopyKey CopyStatus := .empty
  /-- Whether the layer below has shut down. -/
  closed : Bool := false
  /-- How many statuses have been written.  The count does not wrap around: a directory that has
  seen 2 ^ 64 writes is out of reach. -/
  writes : Nat := 0
  deriving Repr, DecidableEq

namespace Directory

/-- A directory whose only member is the home node. -/
def create (home : Node) (status : MemberStatus) : Directory where
  home := home
  members := Table.empty.put home status

/-- Adds a member, or gives a known one a new standing. -/
def enroll (d : Directory) (node : Node) (status : MemberStatus) : Directory :=
  { d with members := d.members.put node status }

/-- Registers a database as hosted by the home node. -/
def host (d : Directory) (database : Database) : Directory :=
  if database ∈ d.hosted then d else { d with hosted := d.hosted ++ [database] }

/-- Drops the status of a copy. -/
def forget (d : Directory) (key : CopyKey) : Directory :=
  { d with entries := d.entries.erase key }

/-- Shuts the directory; it stays shut. -/
def close (d : Directory) : Directory := { d with closed := true }

/-- Answers with `a` while the directory is open. -/
def whileOpen {α : Type} (d : Directory) (a : α) : Except ClusterFailure α :=
  if d.closed then .error .transportClosed else .ok a

/-- The standing of the home node; one that is no member counts as cut off. -/
def homeStatus (d : Directory) : Except ClusterFailure MemberStatus :=
  d.whileOpen ((d.members.find? d.home).getD .offline)

/-- The databases that the home node hosts. -/
def databases (d : Directory) : Except ClusterFailure (List Database) :=
  d.whileOpen d.hosted

/-- The status of a copy, if it was ever given one. -/
def status (d : Directory) (key : CopyKey) : Except ClusterFailure (Option CopyStatus) :=
  d.whileOpen (d.entries.find? key)

/-- Gives a copy a status. -/
def setStatus (d : Directory) (key : CopyKey) (s : CopyStatus) :
    Except ClusterFailure Directory :=
  d.whileOpen { d with entries := d.entries.put key s, writes := d.writes + 1 }

/-- The members whose copy of a database is online, in the order in which they joined. -/
def serving (d : Directory) (database : Database) : List Node :=
  d.members.keys.filter fun node => d.entries.find? ⟨node, database⟩ = some .online

/-- The nodes that serve a database, the home node among them if its own copy is online. -/
def onlineNodes (d : Directory) (database : Database) : Except ClusterFailure (List Node) :=
  d.whileOpen (d.serving database)

/-- A list of nodes without the home node. -/
def withoutHome (home : Node) (nodes : List Node) : List Node :=
  nodes.filter fun node => node ≠ home

/-- The nodes other than the home node that serve a database. -/
def onlinePeers (d : Directory) (database : Database) : Except ClusterFailure (List Node) :=
  (d.onlineNodes database).map (withoutHome d.home)

/-- Every status entry, sorted by node and then by database. -/
def snapshot (d : Directory) : Except ClusterFailure (List (CopyKey × CopyStatus)) :=
  d.whileOpen (d.entries.rows.mergeSort fun a b => a.1.le b.1)

theorem whileOpen_of_open {α : Type} {d : Directory} (h : d.closed = false) (a : α) :
    d.whileOpen a = .ok a := by simp [whileOpen, h]

theorem whileOpen_of_closed {α : Type} {d : Directory} (h : d.closed = true) (a : α) :
    d.whileOpen a = .error .transportClosed := by simp [whileOpen, h]

theorem mem_serving {d : Directory} {database : Database} {node : Node} :
    node ∈ d.serving database ↔
      node ∈ d.members.keys ∧ d.entries.find? ⟨node, database⟩ = some .online := by
  simp [serving]

theorem mem_withoutHome {home : Node} {nodes : List Node} {node : Node} :
    node ∈ withoutHome home nodes ↔ node ∈ nodes ∧ node ≠ home := by
  simp [withoutHome]

end Directory

end Upkeep
