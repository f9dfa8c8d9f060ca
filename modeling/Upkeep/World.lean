import Upkeep.Directory.Operation
import Upkeep.Surroundings
import Upkeep.Trail

/-!
# Worlds

A world is a directory, a journal of everything that was put on record, and whatever the
installer and the transport keep for themselves.  `World.view` shows the directory of a world
to the checks, and `World.surroundings` completes it with an installer and a transport, which
may do with the whole world as they like.
-/

namespace Upkeep

/-- Everything that was put on record. -/
structure Journal where
  /-- The lines, in order. -/
  reports : Trail Report := .empty
  /-- The counted events. -/
  tally : Tally := .empty

namespace Journal

/-- Adds a line. -/
def report (j : Journal) (r : Report) : Journal := { j with reports := j.reports.push r }

/-- Counts an event. -/
def count (j : Journal) (c : Counter) : Journal := { j with tally := j.tally.record c }

/-- Puts something on record. -/
def note (j : Journal) : Note → Journal
  | .report r => j.report r
  | .count c => j.count c

end Journal

/-- A directory, a journal and what the collaborators of the loop keep for themselves. -/
structure World (ρ : Type) where
  /-- The directory. -/
  directory : Directory
  /-- What was put on record. -/
  journal : Journal := {}
  /-- What the installer and the transport keep. -/
  own : ρ

namespace World

variable {ρ α : Type}

/-- Puts something on record. -/
def note (n : Note) (w : World ρ) : World ρ := { w with journal := w.journal.note n }

/-- Adds a line to the journal. -/
def report (r : Report) (w : World ρ) : World ρ := { w with journal := w.journal.report r }

/-- Asks the directory a question. -/
def read (question : Directory → Except ClusterFailure α) (w : World ρ) : Reply α × World ρ :=
  ((question w.directory).mapError .failure, w)

/-- Gives a copy a status and reports the write. -/
def setStatus (key : CopyKey) (s : CopyStatus) (w : World ρ) : Reply Unit × World ρ :=
  match w.directory.setStatus key s with
  | .ok d => (.ok (), { w.report (.statusWritten key s) with directory := d })
  | .error e => (.error (.failure e), w)

/-- Does an operation on the directory; a status that is written is reported. -/
def perform (op : Operation) (w : World ρ) : Except ClusterFailure Answer × World ρ :=
  let (answer, d) := w.directory.perform op
  match op, answer with
  | .setStatus key s, .ok _ => (answer, { w.report (.statusWritten key s) with directory := d })
  | _, _ => (answer, { w with directory := d })

/-- Does operations one after another and drops their answers. -/
def performAll (ops : List Operation) (w : World ρ) : World ρ :=
  ops.foldl (fun w op => (w.perform op).2) w

/-- Operations on the directory of a world change nothing else but the lines on record. -/
theorem performAll_eq (ops : List Operation) (w : World ρ) :
    (w.performAll ops).directory = (w.directory.performAll ops).2 ∧
      (w.performAll ops).own = w.own ∧ (w.performAll ops).journal.tally = w.journal.tally := by
  induction ops generalizing w with
  | nil => exact ⟨rfl, rfl, rfl⟩
  | cons op rest ih =>
    have hone : (w.perform op).2.directory = (w.directory.perform op).2 ∧
        (w.perform op).2.own = w.own ∧ (w.perform op).2.journal.tally = w.journal.tally := by
      simp only [perform]
      split <;> exact ⟨rfl, rfl, rfl⟩
    obtain ⟨hdirectory, hown, htally⟩ := ih (w.perform op).2
    refine ⟨hdirectory.trans ?_, hown.trans hone.2.1, htally.trans hone.2.2⟩
    rw [hone.1]
    rfl

/-- The directory of the world, as the checks see it. -/
def view : DirectoryView (World ρ) where
  homeStatus := read Directory.homeStatus
  databases := read Directory.databases
  status key := read (Directory.status · key)
  setStatus := setStatus
  onlineNodes database := read (Directory.onlineNodes · database)

/-- The surroundings that a world gives to the checks of its home node. -/
def surroundings (home : Node) (installer : Installer (World ρ))
    (transport : Transport (World ρ)) : Surroundings (World ρ) where
  home := home
  directory := view
  installer := installer
  transport := transport
  note := note

end World

end Upkeep
