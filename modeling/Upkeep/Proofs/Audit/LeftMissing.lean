import Mathlib.Data.List.Nodup
import Upkeep.Proofs.Audit.Findings
import Upkeep.Proofs.Audit.Unregistered
import Upkeep.Proofs.Cycle.Attribution
import Upkeep.Proofs.Cycle.Columns

/-!
# A missing status is reported and left missing

In a world whose directory is open, with an installer and a transport that leave it alone, a hosted
database whose local copy has no status is reported by every cycle that runs the checks, and nothing
else is done about it.

* `Audit.missing_left` : **what is missing is reported and left missing**, however calls of the cycle
  take turns, whatever the installer and the transport answer.
-/

namespace Upkeep

namespace Directory

/-- Nothing but copies of other databases has changed. -/
structure Spares (database : Database) (d d' : Directory) : Prop extends SameFrame d d' where
  /-- The copies of this one are as they were. -/
  column_eq : d'.column database = d.column database

/-- An open directory in which the local copy of a hosted database has no status. -/
structure Misses (home : Node) (database : Database) (d : Directory) : Prop where
  /-- It is open. -/
  opened : d.closed = false
  /-- The database is hosted. -/
  hosted : d.hosted.count database = 1
  /-- The local copy has no status. -/
  missing : d.column database home = none

variable {home : Node} {database : Database} {d d' d'' : Directory}

theorem Spares.refl (database : Database) (d : Directory) : d.Spares database d := ⟨.refl d, rfl⟩

theorem Spares.trans (h : d.Spares database d') (h' : d'.Spares database d'') :
    d.Spares database d'' :=
  ⟨h.toSameFrame.trans h'.toSameFrame, h'.column_eq.trans h.column_eq⟩

theorem Misses.spares (h : d.Misses home database) (h' : d.Spares database d') :
    d'.Misses home database :=
  ⟨h'.closed.trans h.opened, h'.hosted ▸ h.hosted, h'.column_eq ▸ h.missing⟩

theorem Misses.mem_missing (h : d.Misses home database) : database ∈ d.missing home := by
  have hhosted : database ∈ d.hosted := List.count_pos_iff.1 (by simp [h.hosted])
  exact List.mem_filter.2 ⟨hhosted, decide_eq_true h.missing⟩

theorem misses_of_mem_missing (hreach : d.Reachable home) (hopen : d.closed = false)
    (hmem : database ∈ d.missing home) : d.Misses home database := by
  obtain ⟨hhosted, hlacks⟩ := List.mem_filter.1 hmem
  exact ⟨hopen, List.count_eq_one_of_mem hreach.nodup_hosted hhosted, of_decide_eq_true hlacks⟩

end Directory

variable {ρ : Type} {home : Node} {database : Database} {installer : Installer (World ρ)}
  {transport : Transport (World ρ)}

open Unregistered

/-- The directory answers as one must that is open and in which the local copy has no status. -/
theorem World.told_unregistered (installer : Installer (World ρ)) (transport : Transport (World ρ))
    {w : World ρ} (hd : w.directory.Misses home database) (r : Request) :
    ((surroundings home installer transport).exchange r w).told.Unregistered home database := by
  have hread : ∀ {α : Type} (f : Directory → α),
      (read (fun d => d.whileOpen (f d)) w).1 = .ok (f w.directory) := by
    intro α f
    simp only [read, Directory.whileOpen_of_open hd.opened]
    rfl
  cases r with
  | homeStatus =>
    change Told.Unregistered home database ⟨.homeStatus, (read Directory.homeStatus w).1⟩
    rw [show (read Directory.homeStatus w).1 = .ok _ from hread _]
    refine ⟨fun _ => rfl, ?_, ?_⟩ <;> rintro _ ⟨⟩
  | databases =>
    change Told.Unregistered home database ⟨.databases, (read Directory.databases w).1⟩
    rw [show (read Directory.databases w).1 = .ok w.directory.hosted from hread _]
    refine ⟨fun _ => rfl, ?_, ?_⟩
    · rintro _ ⟨rfl⟩
      exact hd.hosted
    · rintro _ ⟨⟩
  | status key =>
    change Told.Unregistered home database ⟨.status key, (read (Directory.status · key) w).1⟩
    rw [show (read (Directory.status · key) w).1 = .ok (w.directory.entries.find? key) from hread _]
    refine ⟨fun _ => rfl, ?_, ?_⟩
    · rintro _ ⟨⟩
    · rintro _ ⟨rfl⟩
      exact hd.missing
  | setStatus key s =>
    change Told.Unregistered home database ⟨.setStatus key s, (setStatus key s w).1⟩
    simp only [setStatus, Directory.setStatus, Directory.whileOpen_of_open hd.opened]
    refine ⟨fun _ => rfl, ?_, ?_⟩ <;> rintro _ ⟨⟩
  | onlineNodes other =>
    change Told.Unregistered home database
      ⟨.onlineNodes other, (read (Directory.onlineNodes · other) w).1⟩
    rw [show (read (Directory.onlineNodes · other) w).1 = .ok _ from hread _]
    refine ⟨fun _ => rfl, ?_, ?_⟩ <;> rintro _ ⟨⟩
  | install | heartbeat | note =>
    refine ⟨?_, ?_, ?_⟩
    · rintro ⟨⟩
    · rintro _ ⟨⟩
    · rintro _ ⟨⟩

/-- A status that is given to a copy of another database leaves this one alone. -/
theorem World.spares_setStatus {w : World ρ} (hopen : w.directory.closed = false) {key : CopyKey}
    (hother : key.database ≠ database) (s : CopyStatus) :
    w.directory.Spares database (setStatus key s w).2.directory := by
  have honly := w.directory.onlyOf_write key s
  simp only [setStatus, Directory.setStatus, Directory.whileOpen_of_open hopen]
  exact ⟨honly.toSameFrame, honly.column_eq hother.symm⟩

namespace Unregistered

/-- The database was left alone since the directory was `d`, and only what is expected was asked
about it. -/
structure Holds (home : Node) (database : Database) (d : Directory) (w : Watched (World ρ)) :
    Prop where
  /-- Nothing of the database has changed. -/
  spares : d.Spares database w.now.directory
  /-- What was asked about it is expected. -/
  asked : ∀ r ∈ w.askedOf (Request.names database), Expected home database r

/-- So it is, and since `before` this is what was asked about it. -/
structure Shows (home : Node) (database : Database) (d : Directory) (before : List Request)
    (w : Watched (World ρ)) (own : List Request) : Prop extends Holds home database d w where
  /-- It comes after what was asked before. -/
  asked_eq : w.askedOf (Request.names database) = before ++ own

variable {d : Directory} {w w' : Watched (World ρ)} {before own : List Request}

theorem Holds.bystands (h : Holds home database d w)
    (hw : w.Bystands (Request.names database) World.directory w') : Holds home database d w' :=
  ⟨hw.view_eq ▸ h.spares, hw.askedOf_eq ▸ h.asked⟩

theorem Shows.bystands (h : Shows home database d before w own)
    (hw : w.Bystands (Request.names database) World.directory w') :
    Shows home database d before w' own :=
  ⟨h.toHolds.bystands hw, hw.askedOf_eq.trans h.asked_eq⟩

/-- A request that is expected keeps what holds, if it changes at most copies of other databases. -/
theorem Holds.ask (h : Holds home database d w) {r : Request}
    (hr : r.names database = true → Expected home database r) {t : World ρ}
    (ht : w.now.directory.Spares database t.directory) :
    Holds home database d ⟨t, w.asked ++ [r]⟩ := by
  refine ⟨h.spares.trans ht, ?_⟩
  rw [Watched.askedOf_append _ (w := w) rfl]
  refine List.forall_mem_append.2 ⟨h.asked, fun r' hr' => ?_⟩
  obtain ⟨hmem, hnames⟩ := List.mem_filter.1 hr'
  obtain rfl := List.mem_singleton.1 hmem
  exact hr hnames

/-- It adds to what was asked about the database if it is about that. -/
theorem Shows.ask (h : Shows home database d before w own) {r : Request}
    (hr : r.names database = true → Expected home database r) {t : World ρ}
    (ht : w.now.directory.Spares database t.directory) :
    Shows home database d before ⟨t, w.asked ++ [r]⟩
      (own ++ [r].filter (Request.names database)) := by
  refine ⟨h.toHolds.ask hr ht, ?_⟩
  rw [Watched.askedOf_append _ (w := w) rfl, h.asked_eq, List.append_assoc]

/-- An installer or a transport that leaves the directory alone leaves the database alone. -/
theorem bystands_answer {e : Surroundings (World ρ)} {r : Request}
    (hr : r.names database = false)
    (hsame : ∀ s, (e.answer r).Makes (fun s s' => s'.directory = s.directory) s)
    (w : Watched (World ρ)) :
    (e.watched.answer r).Ensures (Watched.Bystands (Request.names database) World.directory)
      (Watched.Bystands (Request.names database) World.directory)
      (fun _ w' => w.Bystands (Request.names database) World.directory w') w := by
  have hmakes : (e.watched.answer r).Ensures
      (Watched.Bystands (Request.names database) World.directory)
      (Watched.Bystands (Request.names database) World.directory) (fun _ _ => True) w := by
    refine Process.Ensures.mono (Surroundings.makes_answer hsame w) (fun _ _ _ => trivial) ?_
      fun _ _ h => h
    rintro s s' ⟨hnow, hasked⟩
    refine ⟨?_, ?_⟩
    · obtain hnow | hnow := hnow
      · rw [hnow]
      · exact hnow
    · obtain hasked | hasked := hasked
      · rw [Watched.askedOf, hasked, Watched.askedOf]
      · rw [Watched.askedOf_append _ hasked, quiet hr]
  exact (hmakes.keep (.refl _ _ w) (fun _ _ h hw => hw.trans h) fun _ _ h hw => hw.trans h).mono
    (fun _ _ h => h) (fun _ _ h => h) fun _ _ h => h.2

/-- So what was asked about it stays the same. -/
theorem Shows.answer_quiet {e : Surroundings (World ρ)} {r : Request}
    (hr : r.names database = false)
    (hsame : ∀ s, (e.answer r).Makes (fun s s' => s'.directory = s.directory) s)
    (htold : ∀ x, Told.Unregistered home database ⟨r, x⟩)
    (hw : Shows home database d before w own) :
    (e.watched.answer r).Ensures (Watched.Bystands (Request.names database) World.directory)
      (fun w w' => Holds home database d w → Holds home database d w')
      (fun x w' => ∃ own', Shows home database d before w' own' ∧
        (terms home database (Expected home database)).answers own r x own') w := by
  refine (bystands_answer hr hsame w).mono (fun _ _ h => h) (fun _ _ h hw => hw.bystands h)
    fun x w' h => ?_
  exact ⟨own, hw.bystands h, htold x, (quiet hr).symm⟩

section Cycle

variable (hinstaller : ∀ source w,
    (installer source).Makes (fun w w' => w'.directory = w.directory) w)
  (htransport : ∀ database peers timeoutMs w,
    (transport database peers timeoutMs).Makes (fun w w' => w'.directory = w.directory) w)
include hinstaller htransport

/-- **Each answer keeps what holds**, and is as it must be. -/
theorem Shows.answer (hd : d.Misses home database) (hw : Shows home database d before w own)
    {r : Request} (hr : r.names database = true → Expected home database r) :
    ((World.surroundings home installer transport).watched.answer r).Ensures
      (Watched.Bystands (Request.names database) World.directory)
      (fun w w' => Holds home database d w → Holds home database d w')
      (fun x w' => ∃ own', Shows home database d before w' own' ∧
        (terms home database (Expected home database)).answers own r x own') w := by
  have hmisses := hd.spares hw.spares
  have htold := World.told_unregistered installer transport hmisses r
  cases r with
  | homeStatus | databases | status | onlineNodes | note =>
    exact ⟨fun h => h.ask hr (.refl _ _), _, hw.ask hr (.refl _ _), htold, rfl⟩
  | setStatus key s =>
    have hother : key.database ≠ database := fun h => (hr (decide_eq_true h)).elim nofun nofun
    have hspares : w.now.directory.Spares database (World.setStatus key s w.now).2.directory :=
      World.spares_setStatus hmisses.opened hother s
    exact ⟨fun h => h.ask hr hspares, _, hw.ask hr hspares, htold, rfl⟩
  | install source =>
    have hanything : ∀ x, Told.Unregistered home database ⟨.install source, x⟩ :=
      fun _ => ⟨nofun, nofun, nofun⟩
    refine hw.answer_quiet ?_ (hinstaller source) hanything
    exact eq_false_of_ne_true fun hnames => (hr hnames).elim nofun nofun
  | heartbeat other peers timeoutMs =>
    have hanything : ∀ x, Told.Unregistered home database ⟨.heartbeat other peers timeoutMs, x⟩ :=
      fun _ => ⟨nofun, nofun, nofun⟩
    refine hw.answer_quiet ?_ (htransport other peers timeoutMs) hanything
    exact eq_false_of_ne_true fun hnames => (hr hnames).elim nofun nofun

/-- A cycle leaves the database alone, and asks for what is good. -/
theorem accounted (policy : DemotionPolicy) (hd : d.Misses home database) :
    (World.surroundings home installer transport).Accounted policy (Request.names database)
      World.directory (Holds home database d) (Reported home database) where
  openNotes := by simp [Cycle.openNotes, Request.names, World.surroundings, Report.line]
  passNotes := by simp [Cycle.passNotes, Request.names, World.surroundings, Report.line]
  note _ _ := rfl
  keeps n w hn hw :=
    hw.ask (fun hnames => Bool.noConfusion (hn.symm.trans hnames)) (.refl _ _)
  rest w hw := by
    have hstart : Shows home database d (w.askedOf (Request.names database)) w [] :=
      ⟨hw, (List.append_nil _).symm⟩
    refine ((rest_meets home policy database).ensures
      (Shows home database d (w.askedOf (Request.names database))) ?_ hstart).mono
      (fun _ _ h => h) (fun _ _ h => h) ?_
    · intro r w' own hw' hallowed
      have htold := World.told_unregistered installer transport (hd.spares hw'.spares) r
      exact hw'.answer hinstaller htransport hd (hallowed _ _ ⟨htold, rfl⟩)
    · rintro _ _ ⟨own, hshows, hgood⟩
      exact ⟨own, hshows.asked_eq, hgood⟩

end Cycle

end Unregistered

/-- **What is missing is reported and left missing.**  The audit finds exactly the hosted databases
whose local copy has no status, each once and in the order of hosting, and leaves the directory as it
is; and of such a database calls of the cycle only ever ask for the status of the local copy and
report it missing, which a call that has ended has done once unless it passed over. -/
theorem Audit.missing_left
    (hinstaller : ∀ source w,
      (installer source).Makes (fun w w' => w'.directory = w.directory) w)
    (htransport : ∀ database peers timeoutMs w,
      (transport database peers timeoutMs).Makes (fun w w' => w'.directory = w.directory) w)
    {w : World ρ} (hreach : w.directory.Reachable home) (hopen : w.directory.closed = false) :
    let e := World.surroundings home installer transport
    let audited := ((Audit.check home).run.within e).finish 0 w
    (audited.1.1 = .ok (w.directory.missing home) ∧ (w.directory.missing home).Nodup ∧
      audited.2.directory = w.directory) ∧
    ∀ database ∈ w.directory.missing home, ∀ (policy : DemotionPolicy) (n : Nat) (order : List Nat),
      let p := (Pool.ofFresh n ⟨false, w⟩).steps e policy order
      let entries := Pool.ledger e policy order (Pool.ofFresh n ⟨false, ⟨w, []⟩⟩)
      -- it is still missing, and its other copies are as they were
      (database ∈ p.shared.world.directory.missing home ∧
        p.shared.world.directory.column database = w.directory.column database) ∧
      -- nothing else is asked about it
      (∀ i r, (i, r) ∈ entries → r.names database = true → r = .status ⟨home, database⟩ ∨
        r = .note (.report (.statusMissing home database))) ∧
      -- a call that has ended has reported it once, unless it passed over
      ∀ i outcome, p.calls[i]? = some (.ended outcome) → outcome ≠ .skipped →
        entries.count (i, .note (.report (.statusMissing home database))) = 1 := by
  intro e audited
  obtain ⟨w', hsame, hruns⟩ := Audit.runs_check home installer transport hopen
  obtain ⟨hfound, hleft⟩ :=
    Prod.mk.inj ((Program.finish_within (Audit.check home).run 0 w).trans hruns.outcome_eq)
  refine ⟨⟨hfound, hreach.nodup_hosted.filter _, (congrArg World.directory hleft).trans hsame⟩, ?_⟩
  intro database hmissing policy n order p entries
  have hd := Directory.misses_of_mem_missing hreach hopen hmissing
  let fresh : Pool (Watched (World ρ)) := Pool.ofFresh n ⟨false, ⟨w, []⟩⟩
  have hshadows : (fresh.steps e.watched policy order).Shadows p :=
    Pool.shadows_steps (Pool.shadows_ofFresh n ⟨false, ⟨w, []⟩⟩) order
  have hstart : Holds home database w.directory ⟨w, []⟩ := ⟨.refl _ _, nofun⟩
  obtain ⟨hholds, hgood⟩ := Pool.attributed
    (accounted hinstaller htransport policy hd) (n := n) hstart order
  have hspares : w.directory.Spares database p.shared.world.directory := by
    rw [hshadows.shared]
    exact hholds.spares
  refine ⟨⟨(hd.spares hspares).mem_missing, hspares.column_eq⟩, fun i r hr hnames => ?_,
    fun i outcome hi hran => ?_⟩
  · have hasked : fresh.shared.world.asked ++ entries.map Prod.snd = _ :=
      Pool.map_ledger (Pool.sound_ofFresh n trivial) order
    refine hholds.asked r (List.mem_filter.2 ⟨?_, hnames⟩)
    rw [← hasked]
    exact List.mem_append_right _ (List.mem_map_of_mem hr)
  · have hnames : (missed home database).names database = true := by
      simp [Request.names, Report.line]
    rw [← Pool.count_ownOf hnames]
    exact (hgood i outcome (hshadows.ended hi) hran).once

/-- An installer that crashes after a while. -/
def crashing : Installer (World Unit) := fun _ => .pause 5 (.done (.error (.crash none)))

/-- A transport that has shut down. -/
def shutDown : Transport (World Unit) := fun _ _ _ => .done (.error (.failure .transportClosed))

/-- A node that was never told of its copy of one of three databases. -/
def untold : World Unit where
  directory := ((Directory.create "n1" .online).performAll [.enroll "n2" .online,
    .host "Invoices", .setStatus ⟨"n2", "Invoices"⟩ .online,
    .host "Orders", .setStatus ⟨"n1", "Orders"⟩ .offline, .setStatus ⟨"n2", "Orders"⟩ .online,
    .host "Stocks", .setStatus ⟨"n1", "Stocks"⟩ .online, .setStatus ⟨"n2", "Stocks"⟩ .online]).2
  own := ()

/-- One call installs a copy, to no avail, while another passes over, and then its heartbeats find
the transport shut down. -/
theorem Audit.missing_left_amidFailures :
    let e := World.surroundings "n1" crashing shutDown
    let p := (Pool.ofFresh 2 ⟨false, untold⟩).steps e ⟨true, 200⟩ [0, 1, 0]
    let entries := Pool.ledger e ⟨true, 200⟩ [0, 1, 0] (Pool.ofFresh 2 ⟨false, ⟨untold, []⟩⟩)
    (((Audit.check "n1").run.within e).finish 0 untold).1.1 = .ok ["Invoices"] ∧
      p.calls.map Call.outcome? = [some .interrupted, some .skipped] ∧
      p.shared.world.directory.column "Invoices" = untold.directory.column "Invoices" ∧
      entries.count (0, .note (.report (.statusMissing "n1" "Invoices"))) = 1 := by
  have hinstaller : ∀ source w,
      (crashing source).Makes (fun w w' : World Unit => w'.directory = w.directory) w :=
    fun _ _ _ _ => trivial
  have htransport : ∀ database peers timeoutMs w, (shutDown database peers timeoutMs).Makes
      (fun w w' : World Unit => w'.directory = w.directory) w := fun _ _ _ _ => trivial
  have hreach : untold.directory.Reachable "n1" := ⟨.online, _, rfl⟩
  obtain ⟨⟨haudited, -⟩, hdatabases⟩ :=
    missing_left hinstaller htransport hreach (by decide +kernel)
  have hmissing : untold.directory.missing "n1" = ["Invoices"] := by decide +kernel
  have hmem : "Invoices" ∈ untold.directory.missing "n1" := by simp [hmissing]
  rw [hmissing] at haudited
  obtain ⟨⟨-, hcolumn⟩, -, hreported⟩ := hdatabases "Invoices" hmem ⟨true, 200⟩ 2 [0, 1, 0]
  have houtcomes : ((Pool.ofFresh 2 ⟨false, untold⟩).steps
      (World.surroundings "n1" crashing shutDown) ⟨true, 200⟩ [0, 1, 0]).calls.map Call.outcome? =
        [some .interrupted, some .skipped] := by decide +kernel
  refine ⟨haudited, houtcomes, hcolumn, ?_⟩
  exact hreported 0 .interrupted (Pool.getElem?_of_outcomes houtcomes rfl) nofun

end Upkeep
