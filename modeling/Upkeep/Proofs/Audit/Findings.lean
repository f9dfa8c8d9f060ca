import Upkeep.Audit
import Upkeep.Proofs.Program.Visits

/-!
# What the audit finds

In a world whose directory is open the audit finds the hosted databases whose local copy has no
status, in the order in which they are hosted.  It does nothing besides, whatever the standing of
the home node, and it never comes to an install or a heartbeat.
-/

namespace Upkeep

namespace Directory

/-- Whether the local copy of a database has no status. -/
def lacks (d : Directory) (home : Node) (database : Database) : Bool :=
  d.entries.find? ⟨home, database⟩ = none

/-- The hosted databases whose local copy has no status. -/
def missing (d : Directory) (home : Node) : List Database := d.hosted.filter (d.lacks home)

end Directory

namespace Audit

open Check (runs_pure runs_status runs_report runs_count)

variable {ρ : Type} (home : Node) (installer : Installer (World ρ))
  (transport : Transport (World ρ)) {w : World ρ}

/-- A database is reported exactly if its local copy has no status, and nothing is changed. -/
theorem runs_auditDatabase (hopen : w.directory.closed = false) (database : Database) :
    ∃ w', w'.directory = w.directory ∧ (auditDatabase home database).Runs
      (World.surroundings home installer transport) w []
      (.ok (if w.directory.lacks home database then [database] else [])) w' := by
  have hstatus : (Check.status ⟨home, database⟩).Runs (World.surroundings home installer transport)
      w [] (.ok (w.directory.entries.find? ⟨home, database⟩)) w := runs_status hopen _
  by_cases hnone : w.directory.entries.find? ⟨home, database⟩ = none
  · have hlacks : w.directory.lacks home database = true := decide_eq_true hnone
    refine ⟨(w.note (.report (.statusMissing home database))).note (.count .missingStatuses), rfl,
      hstatus.after_quiet ?_⟩
    rw [if_pos hnone, if_pos hlacks]
    exact (runs_report _ w).after_quiet ((runs_count _ _).after_quiet (runs_pure _ _))
  · have hhas : ¬w.directory.lacks home database = true := fun h => hnone (of_decide_eq_true h)
    refine ⟨w, rfl, hstatus.after_quiet ?_⟩
    rw [if_neg hnone, if_neg hhas]
    exact runs_pure [] w

/-- Going through databases the audit finds those whose local copy has no status. -/
theorem runs_gather (hopen : w.directory.closed = false) (databases : List Database) :
    ∃ w', w'.directory = w.directory ∧ (Check.gather (auditDatabase home) databases).Runs
      (World.surroundings home installer transport) w []
      (.ok (databases.filter (w.directory.lacks home))) w' := by
  induction databases generalizing w with
  | nil => exact ⟨w, rfl, runs_pure [] w⟩
  | cons database rest ih =>
    obtain ⟨w₁, hfirst, hturn⟩ := runs_auditDatabase home installer transport hopen database
    have hopen₁ : w₁.directory.closed = false := hfirst ▸ hopen
    obtain ⟨w₂, hrest, hgather⟩ := ih hopen₁
    rw [hfirst] at hgather hrest
    refine ⟨w₂, hrest, ?_⟩
    have hcons : (database :: rest).filter (w.directory.lacks home) =
        (if w.directory.lacks home database then [database] else []) ++
          rest.filter (w.directory.lacks home) := by
      rw [List.filter_cons]
      split <;> rfl
    rw [hcons]
    exact hturn.after_quiet hgather.map

/-- **The audit finds what is missing**, and leaves the directory as it is. -/
theorem runs_check (hopen : w.directory.closed = false) :
    ∃ w', w'.directory = w.directory ∧ (check home).Runs
      (World.surroundings home installer transport) w [] (.ok (w.directory.missing home)) w' := by
  obtain ⟨w', hsame, hgather⟩ := runs_gather home installer transport hopen w.directory.hosted
  exact ⟨w', hsame, (Check.runs_databases hopen).after_quiet hgather⟩

end Audit

end Upkeep
