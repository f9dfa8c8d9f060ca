import Upkeep.Proofs.Directory.Conduct

/-!
# The peers of a round

The stall check holds a round for a hosted database if its local copy is online and other members
serve it.  Both are read off the entries of that database.
-/

namespace Upkeep

namespace Stall

variable {home peer : Node} {d d' : Directory} {database : Database}

/-- The peers that are asked about a database: the other members whose copy is online. -/
def peersOf (home : Node) (d : Directory) (database : Database) : List Node :=
  Directory.withoutHome home (d.serving database)

/-- Whether a heartbeat is sent for a database: its local copy is online, and there is a peer. -/
def holdsRound (home : Node) (d : Directory) (database : Database) : Bool :=
  d.entries.find? ⟨home, database⟩ = some .online ∧ peersOf home d database ≠ []

theorem mem_peersOf : peer ∈ peersOf home d database ↔
    (peer ∈ d.members.keys ∧ d.entries.find? ⟨peer, database⟩ = some .online) ∧ peer ≠ home := by
  rw [peersOf, Directory.mem_withoutHome, Directory.mem_serving]

/-- What is asked about a database depends on its own entries only. -/
theorem peersOf_congr (home : Node) (hmembers : d'.members = d.members)
    (hentries : ∀ node, d'.entries.find? ⟨node, database⟩ = d.entries.find? ⟨node, database⟩) :
    peersOf home d' database = peersOf home d database := by
  simp only [peersOf, Directory.serving, hmembers, hentries]

theorem holdsRound_congr (home : Node) (hmembers : d'.members = d.members)
    (hentries : ∀ node, d'.entries.find? ⟨node, database⟩ = d.entries.find? ⟨node, database⟩) :
    holdsRound home d' database = holdsRound home d database := by
  simp only [holdsRound, peersOf_congr home hmembers hentries, hentries]

end Stall

end Upkeep
