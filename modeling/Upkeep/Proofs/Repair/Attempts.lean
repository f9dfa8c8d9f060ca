import Upkeep.Proofs.Program.Visits
import Upkeep.Proofs.Stall.Peers

/-!
# What the repair check attempts

The repair check visits the databases that were hosted at its start, in order.  What it attempts is
decided by the directory as it is when the turn of a database comes, since an install may change the
directory for the databases after it.

* `Repair.Visited` : the four ways in which the turn of a database goes.
* `Repair.recovery_turns` : **every hosted database takes one of them**, whatever becomes of the
  installs, and the check returns the attempts in order.
-/

namespace Upkeep

/-- An install that is begun while the directory is open leaves it open.  It may change everything
else. -/
def Installer.SparesDirectory {ρ : Type} (installer : Installer (World ρ)) : Prop :=
  ∀ source w, w.directory.closed = false →
    ((installer source).finish 0 w).2.directory.closed = false

namespace Repair

variable {ρ : Type} {home : Node} {installer : Installer (World ρ)}
  {transport : Transport (World ρ)}

/-- How the turn of a database in the repair check goes. -/
inductive Visited (home : Node) : Visit (World ρ) Database RecoveryAttempt → Prop
  /-- The local copy is not offline, and nothing is done. -/
  | left {database : Database} {w : World ρ}
      (hstatus : w.directory.entries.find? ⟨home, database⟩ ≠ some .offline) :
      Visited home ⟨database, w, [], .ok [], w⟩
  /-- No peer serves the database, and the local copy goes online as it is. -/
  | promoted {database : Database} {w w' : World ρ} {x : Exchange (World ρ)}
      (hstatus : w.directory.entries.find? ⟨home, database⟩ = some .offline)
      (hpeers : Stall.peersOf home w.directory database = [])
      (hx : x.told = ⟨.setStatus ⟨home, database⟩ .online, .ok ()⟩)
      (hafter : w'.directory = w.directory.write ⟨home, database⟩ .online) :
      Visited home ⟨database, w, [x], .ok [⟨database, .promotedLastCopy⟩], w'⟩
  /-- A current copy is installed from the first peer that serves the database, and goes online. -/
  | recovered {database : Database} {w w' : World ρ} {x y : Exchange (World ρ)} {first : Node}
      {others : List Node} (hstatus : w.directory.entries.find? ⟨home, database⟩ = some .offline)
      (hpeers : Stall.peersOf home w.directory database = first :: others)
      (hx : x.told = ⟨.install ⟨database, first, first :: others⟩, .ok true⟩)
      (hbefore : x.before.directory = w.directory)
      (hy : y.told = ⟨.setStatus ⟨home, database⟩ .online, .ok ()⟩)
      (hafter : w'.directory = x.after.directory.write ⟨home, database⟩ .online) :
      Visited home ⟨database, w, [x, y], .ok [⟨database, .recovered first⟩], w'⟩
  /-- No current copy could be installed from that peer, for a reason, and nothing is written. -/
  | failed {database : Database} {w w' : World ρ} {x : Exchange (World ρ)} {first : Node}
      {others : List Node} {reply : Reply Bool} {reason : String}
      (hstatus : w.directory.entries.find? ⟨home, database⟩ = some .offline)
      (hpeers : Stall.peersOf home w.directory database = first :: others)
      (hx : x.told = ⟨.install ⟨database, first, first :: others⟩, reply⟩)
      (hbefore : x.before.directory = w.directory) (hreason : failureReason reply = some reason)
      (hafter : w'.directory = x.after.directory) :
      Visited home ⟨database, w, [x], .ok [⟨database, .failed first reason⟩], w'⟩

/-- Only an install that brought a current copy has not failed. -/
theorem failureReason_eq_none {reply : Reply Bool} :
    failureReason reply = none ↔ reply = .ok true := by
  constructor
  · intro h
    match reply with
    | .ok true => rfl
  · rintro rfl
    rfl

open Check (runs_pure runs_report runs_count runs_setStatus)

theorem runs_promote (home : Node) (installer : Installer (World ρ))
    (transport : Transport (World ρ)) {w : World ρ} (hopen : w.directory.closed = false)
    (database : Database) :
    ∃ (x : Exchange (World ρ)) (w' : World ρ),
      x.told = ⟨.setStatus ⟨home, database⟩ .online, .ok ()⟩ ∧
      w'.directory = w.directory.write ⟨home, database⟩ .online ∧
      (promote home database).Runs (World.surroundings home installer transport) w [x]
        (.ok .promotedLastCopy) w' := by
  obtain ⟨x, htold, -, hwritten, hset⟩ := runs_setStatus home installer transport
    (show (w.report (.lastCopyTaken home database)).directory.closed = false from hopen)
    ⟨home, database⟩ .online
  refine ⟨x, x.after.note (.count (.recoveries "promoted")), htold, hwritten, ?_⟩
  refine (runs_report _ w).after_quiet (hset.bind ?_)
  exact (runs_count _ _).after_quiet (runs_pure _ _)

/-- **An install is asked for once**, and the copy is set online exactly if it brought a current
one. -/
theorem runs_install (home : Node) (hspares : installer.SparesDirectory)
    (transport : Transport (World ρ)) {w : World ρ} (hopen : w.directory.closed = false)
    (source : InstallSource) :
    ∃ x : Exchange (World ρ), x.before.directory = w.directory ∧
      x.after.directory.closed = false ∧
      ((∃ y w', x.told = ⟨.install source, .ok true⟩ ∧
          y.told = ⟨.setStatus ⟨home, source.database⟩ .online, .ok ()⟩ ∧
          w'.directory = x.after.directory.write ⟨home, source.database⟩ .online ∧
          (install home source).Runs (World.surroundings home installer transport) w [x, y]
            (.ok (.recovered source.node)) w') ∨
        ∃ reply reason w', x.told = ⟨.install source, reply⟩ ∧
          failureReason reply = some reason ∧ w'.directory = x.after.directory ∧
          (install home source).Runs (World.surroundings home installer transport) w [x]
            (.ok (.failed source.node reason)) w') := by
  let e := World.surroundings home installer transport
  let w₁ := w.report (.recoveryStarted home source.node source.database)
  obtain ⟨reply, htold, hinstall⟩ := Check.runs_install (e := e) source w₁
  have hopen' : (e.exchange (.install source) w₁).after.directory.closed = false :=
    hspares source w₁ hopen
  refine ⟨e.exchange (.install source) w₁, rfl, hopen', ?_⟩
  cases hreason : failureReason reply with
  | none =>
    obtain rfl := failureReason_eq_none.1 hreason
    obtain ⟨y, hytold, -, hwritten, hset⟩ := runs_setStatus home installer transport hopen'
      ⟨home, source.database⟩ .online
    refine .inl ⟨y, (y.after.note (.report (.recoveryCompleted home source.database))).note
      (.count (.recoveries "recovered")), htold, hytold, hwritten, ?_⟩
    refine (runs_report _ w).after_quiet (hinstall.bind ?_)
    refine hset.bind ((runs_report _ _).after_quiet ?_)
    exact (runs_count _ _).after_quiet (runs_pure _ _)
  | some reason =>
    refine .inr ⟨reply, reason, ((e.exchange (.install source) w₁).after.note
      (.report (.recoveryFailed home source.database reason))).note
      (.count (.recoveries "failed")), htold, hreason, rfl, ?_⟩
    refine (runs_report _ w).after_quiet (hinstall.bind ?_)
    rw [hreason]
    refine (runs_report _ _).after_quiet ?_
    exact (runs_count _ _).after_quiet (runs_pure _ _)

/-- **The turn of a database goes in one of the four ways**, and leaves the directory open. -/
theorem runs_repairDatabase (home : Node) (hspares : installer.SparesDirectory)
    (transport : Transport (World ρ)) (database : Database) (w : World ρ)
    (hopen : w.directory.closed = false) :
    ∃ v : Visit (World ρ) Database RecoveryAttempt, v.item = database ∧ v.before = w ∧
      (repairDatabase home database).Runs (World.surroundings home installer transport) w v.acts
        v.reply v.after ∧ Visited home v ∧ v.after.directory.closed = false := by
  let e := World.surroundings home installer transport
  have hstatus : (Check.status ⟨home, database⟩).Runs e w []
      (.ok (w.directory.entries.find? ⟨home, database⟩)) w := Check.runs_status hopen _
  by_cases hoffline : w.directory.entries.find? ⟨home, database⟩ = some .offline
  · have hrecover : ∀ {acts outcome w'},
        (recover home database).Runs e w acts (.ok ⟨database, outcome⟩) w' →
        (repairDatabase home database).Runs e w acts (.ok [⟨database, outcome⟩]) w' := fun h => by
      refine hstatus.after_quiet ?_
      rw [if_pos hoffline]
      exact h.map
    have hpeers : (Check.onlinePeers home database).Runs e w []
        (.ok (Stall.peersOf home w.directory database)) w := Check.runs_onlinePeers hopen database
    cases hserve : Stall.peersOf home w.directory database with
    | nil =>
      obtain ⟨x, w', htold, hafter, hruns⟩ := runs_promote home installer transport hopen
        database
      refine ⟨_, rfl, rfl, hrecover ?_, .promoted hoffline hserve htold hafter, ?_⟩
      · rw [hserve] at hpeers
        exact hpeers.after_quiet hruns.map
      · exact hafter ▸ hopen
    | cons first others =>
      have hinstalled : ∀ {acts outcome w'}, (install home ⟨database, first, first :: others⟩).Runs
          e w acts (.ok outcome) w' →
          (recover home database).Runs e w acts (.ok ⟨database, outcome⟩) w' := fun h => by
        rw [hserve] at hpeers
        exact hpeers.after_quiet h.map
      obtain ⟨x, hbefore, hopen', ⟨y, w', hx, hy, hafter, hruns⟩ |
          ⟨reply, reason, w', hx, hreason, hafter, hruns⟩⟩ :=
        runs_install home hspares transport hopen ⟨database, first, first :: others⟩
      · exact ⟨_, rfl, rfl, hrecover (hinstalled hruns),
          .recovered hoffline hserve hx hbefore hy hafter, hafter ▸ hopen'⟩
      · exact ⟨_, rfl, rfl, hrecover (hinstalled hruns),
          .failed hoffline hserve hx hbefore hreason hafter, hafter ▸ hopen'⟩
  · refine ⟨_, rfl, rfl, hstatus.after_quiet ?_, .left hoffline, hopen⟩
    rw [if_neg hoffline]
    exact runs_pure [] w

/-- A node with four databases, two of them offline and one without a copy. -/
def patchy : World Unit where
  directory := ((Directory.create "n1" .online).performAll [.enroll "n2" .online, .host "Orders",
    .host "Users", .host "Stock", .host "Notes", .setStatus ⟨"n1", "Orders"⟩ .offline,
    .setStatus ⟨"n1", "Users"⟩ .online, .setStatus ⟨"n1", "Stock"⟩ .offline,
    .setStatus ⟨"n2", "Orders"⟩ .online, .setStatus ⟨"n2", "Users"⟩ .online,
    .setStatus ⟨"n2", "Stock"⟩ .online]).2
  own := ()

end Repair

end Upkeep
