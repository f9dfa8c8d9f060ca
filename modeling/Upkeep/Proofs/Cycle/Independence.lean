import Mathlib.Data.List.Perm.Basic
import Upkeep.Proofs.Cycle.Manners
import Upkeep.Proofs.Cycle.Parts

/-!
# Databases do not depend on one another

The checks of a cycle share one directory, and each of them goes through all hosted databases.  All
the same a cycle treats every database as if it were the only one.

* `Cycle.Yields` : what the checks of a cycle return, and the directory that it leaves.
* `Yield.share` : the part of it that concerns one database.
* `Manners.Kept.yields` : what a cycle yields of a hosted database, by its own copies.
* `Cycle.independence` : **the share of a database depends on nothing else**.
-/

namespace Upkeep

/-- What the checks of a cycle return, and the directory that the cycle leaves. -/
structure Yield where
  /-- What was attempted. -/
  attempts : List RecoveryAttempt
  /-- The databases whose local copy has no status. -/
  findings : List Database
  /-- What was decided about silent peers. -/
  demotions : List PeerDemotion
  /-- The directory. -/
  directory : Directory

/-- The part of it that concerns one database. -/
structure Share where
  /-- What was attempted. -/
  attempts : List RecoveryAttempt
  /-- The database, if its local copy has no status. -/
  findings : List Database
  /-- What was decided about silent peers. -/
  demotions : List PeerDemotion
  /-- Its copies. -/
  column : Column

/-- The part of a yield that concerns a database. -/
def Yield.share (y : Yield) (database : Database) : Share where
  attempts := y.attempts.filter (·.database = database)
  findings := y.findings.filter (· = database)
  demotions := y.demotions.filter (·.database = database)
  column := y.directory.column database

/-- A yield takes the databases one after another. -/
structure Yield.Follows (y : Yield) (databases : List Database) : Prop where
  /-- What was attempted comes in the order of the databases. -/
  attempts : y.attempts = databases.flatMap fun database => (y.share database).attempts
  /-- So does what was found. -/
  findings : y.findings = databases.flatMap fun database => (y.share database).findings
  /-- So does what was decided. -/
  demotions : y.demotions = databases.flatMap fun database => (y.share database).demotions

/-- A cycle that runs alone completes, and yields what its checks return one after another. -/
inductive Cycle.Yields {ρ : Type} (e : Surroundings (World ρ)) (policy : DemotionPolicy)
    (w : World ρ) : Yield → Prop
  /-- Each check ends well, and the next begins with what it leaves. -/
  | completed {attempts : List RecoveryAttempt} {findings : List Database}
      {demotions : List PeerDemotion} {w₁ w₂ w₃ : World ρ}
      (hrepair : (Repair.check e.home).run.outcome e (opened e w) = (.ok attempts, w₁))
      (haudit : (Audit.check e.home).run.outcome e w₁ = (.ok findings, w₂))
      (hstall : (Stall.check e.home policy).run.outcome e w₂ = (.ok demotions, w₃))
      (hend : (body e.home policy).outcome e w =
        (.completed, e.note (.report (.cycleEnded e.home .completed)) w₃)) :
      Yields e policy w ⟨attempts, findings, demotions, w₃.directory⟩

namespace Cycle

variable {σ : Type} {e : Surroundings σ} {policy : DemotionPolicy} {s s₁ s₂ s₃ : σ}

/-- After a check that ended well the cycle goes on. -/
theorem outcome_guarded {α β : Type} {name : CheckName} {c : Check α} {a : α} {s s' : σ}
    (h : c.run.outcome e s = (.ok a, s')) (f : Bool → Program β) :
    (guarded e.home name c >>= f).outcome e s = (f true).outcome e s' := by
  rw [Program.outcome_bind, guarded, Program.outcome_bind, h]
  rfl

/-- If no check fails, a cycle completes. -/
theorem outcome_body {attempts : List RecoveryAttempt} {findings : List Database}
    {demotions : List PeerDemotion}
    (hrepair : (Repair.check e.home).run.outcome e (opened e s) = (.ok attempts, s₁))
    (haudit : (Audit.check e.home).run.outcome e s₁ = (.ok findings, s₂))
    (hstall : (Stall.check e.home policy).run.outcome e s₂ = (.ok demotions, s₃)) :
    (body e.home policy).outcome e s =
      (.completed, e.note (.report (.cycleEnded e.home .completed)) s₃) := by
  have hchecks : (checks e.home policy).outcome e (opened e s) = (.completed, s₃) := by
    rw [checks, outcome_guarded hrepair]
    exact (outcome_guarded haudit _).trans (outcome_guarded hstall _)
  have hbody : (body e.home policy).outcome e s = (rest e.home policy).outcome e (opened e s) := rfl
  rw [hbody, rest, Program.outcome_bind, hchecks]
  rfl

end Cycle

namespace Manners

variable {ρ : Type} {m : Manners} {policy : DemotionPolicy} {home : Node}
  {installer : Installer (World ρ)} {transport : Transport (World ρ)}
  {members : Table Node MemberStatus}

/-- What a cycle yields of a hosted database, by the copies of that database. -/
def share (m : Manners) (policy : DemotionPolicy) (home : Node) (standing : MemberStatus)
    (order : List Node) (database : Database) (c : Column) : Share :=
  let repaired := (m.repair home order).given standing database c
  let judged := (m.stall policy home order).given standing database repaired.column
  ⟨repaired.found, (audit home database repaired.column).found, judged.found, judged.column⟩

/-- Checks that take every database by itself yield of it what they make of it one after another, and
of a database that is not hosted nothing. -/
theorem share_of_swept {standing : MemberStatus} {order : List Node} {hosted : List Database}
    {d d₁ d₂ : Directory} {attempts : List RecoveryAttempt} {findings : List Database}
    {demotions : List PeerDemotion} (hnodup : hosted.Nodup)
    (hrepaired : Check.Swept ((m.repair home order).given standing) hosted d attempts d₁)
    (haudited : Check.Swept (audit home) hosted d₁ findings d₁)
    (hjudged : Check.Swept ((m.stall policy home order).given standing) hosted d₁ demotions d₂)
    (database : Database) :
    Yield.share ⟨attempts, findings, demotions, d₂⟩ database =
      if database ∈ hosted then m.share policy home standing order database (d.column database)
      else ⟨[], [], [], d.column database⟩ := by
  have hattempts :=
    hrepaired.filter_found hnodup ((about_repair m home order).given standing) database
  have hfindings := haudited.filter_found hnodup (about_audit home) database
  have hdemotions :=
    hjudged.filter_found hnodup ((about_stall m policy home order).given standing) database
  by_cases hdatabase : database ∈ hosted
  · have hcolumn₁ := hrepaired.column_eq database hdatabase
    have hcolumn₂ := hjudged.column_eq database hdatabase
    rw [if_pos hdatabase] at hattempts hfindings hdemotions ⊢
    rw [hcolumn₁] at hfindings hdemotions hcolumn₂
    exact congr (congr (congrArg₂ Share.mk hattempts hfindings) hdemotions) hcolumn₂
  · have hcolumn := (hjudged.other_eq database hdatabase).trans
      (hrepaired.other_eq database hdatabase)
    rw [if_neg hdatabase] at hattempts hfindings hdemotions ⊢
    exact congr (congr (congrArg₂ Share.mk hattempts hfindings) hdemotions) hcolumn

/-- **What a cycle yields it yields of each hosted database by itself.** -/
theorem Kept.yields (hm : m.Kept installer transport) (policy : DemotionPolicy)
    {standing : MemberStatus} (hstanding : members.find? home = some standing) {w : World ρ}
    (hw : w.Ready home members) :
    ∃ y, Cycle.Yields (World.surroundings home installer transport) policy w y ∧
      y.Follows w.directory.hosted ∧
      ∀ database, y.share database =
        if database ∈ w.directory.hosted then
          m.share policy home standing members.keys database (w.directory.column database)
        else ⟨[], [], [], w.directory.column database⟩ := by
  let e := World.surroundings home installer transport
  have hopened : (Cycle.opened e w).Ready home members := ⟨hw.reach, hw.opened, hw.members_eq⟩
  obtain ⟨_, attempts, w₁, hrepair, hw₁, hrepaired⟩ :=
    hm.repair_goesBy.ifOnline hstanding (.repairLeftOut home) hopened
  obtain ⟨w₂, hsame, haudit⟩ := Audit.runs_check home installer transport hw₁.opened
  have hw₂ : w₂.Ready home members :=
    hw₁.of_evolves (hsame.symm ▸ .refl _) (hsame.symm ▸ .refl _)
  obtain ⟨_, demotions, w₃, hstall, -, hjudged⟩ :=
    (hm.stall_goesBy policy).ifOnline hstanding (.stallLeftOut home) hw₂
  have hhosted : w₁.directory.hosted = w.directory.hosted := hrepaired.frame.hosted
  have haudited := audit_swept home w₁.directory
  rw [hsame, hhosted] at hjudged
  rw [hhosted] at haudited
  have hnodup := hw.reach.nodup_hosted
  refine ⟨⟨attempts, w₁.directory.missing home, demotions, w₃.directory⟩,
    .completed hrepair.outcome_eq haudit.outcome_eq hstall.outcome_eq
      (Cycle.outcome_body hrepair.outcome_eq haudit.outcome_eq hstall.outcome_eq),
    ⟨?_, ?_, ?_⟩, share_of_swept hnodup hrepaired haudited hjudged⟩
  · exact hrepaired.found_eq_flatMap hnodup ((about_repair m home members.keys).given standing)
  · exact haudited.found_eq_flatMap hnodup (about_audit home)
  · exact hjudged.found_eq_flatMap hnodup ((about_stall m policy home members.keys).given standing)

end Manners

/-- The home node is a member. -/
theorem Directory.Reachable.find?_home {home : Node} {d : Directory} (h : d.Reachable home) :
    ∃ standing, d.members.find? home = some standing := by
  obtain ⟨standing, ops, rfl⟩ := h
  exact (recorded_performAll home standing ops).find?_home

/-- **Databases do not depend on one another.**  Two open directories of one node may differ in
anything but its standing and the order of the members, and the collaborators of either may keep
whatever they like, if only they answer alike. -/
theorem Cycle.independence {ρ ρ' : Type} {m : Manners} {home : Node}
    {installer : Installer (World ρ)} {transport : Transport (World ρ)}
    (hm : m.Kept installer transport) {installer' : Installer (World ρ')}
    {transport' : Transport (World ρ')} (hm' : m.Kept installer' transport')
    (policy : DemotionPolicy) {w : World ρ} (hreach : w.directory.Reachable home)
    (hopen : w.directory.closed = false) {w' : World ρ'} (hreach' : w'.directory.Reachable home)
    (hopen' : w'.directory.closed = false) :
    let d := w.directory
    let d' := w'.directory
    ∃ y y', Yields (World.surroundings home installer transport) policy w y ∧
      Yields (World.surroundings home installer' transport') policy w' y' ∧
      -- what is found comes in the order in which the databases are hosted
      y.Follows d.hosted ∧ y'.Follows d'.hosted ∧
      -- of a database that is not hosted nothing is found, and its entries do not change
      (∀ database ∉ d.hosted, y.share database = ⟨[], [], [], d.column database⟩) ∧
      (d.members.find? home = d'.members.find? home → d.members.keys = d'.members.keys →
        -- what a cycle yields of a database depends on its own entries, whatever the others are
        (∀ database, (database ∈ d.hosted ↔ database ∈ d'.hosted) →
          d.column database = d'.column database → y.share database = y'.share database) ∧
        -- the order in which the databases are hosted decides only the order of what is found
        (d.hosted.Perm d'.hosted →
          (∀ key, d.entries.find? key = d'.entries.find? key) →
          (∀ key, y.directory.entries.find? key = y'.directory.entries.find? key) ∧
            y.attempts.Perm y'.attempts ∧ y.findings.Perm y'.findings ∧
            y.demotions.Perm y'.demotions)) := by
  intro d d'
  obtain ⟨standing, hstanding⟩ := hreach.find?_home
  obtain ⟨standing', hstanding'⟩ := hreach'.find?_home
  obtain ⟨y, hy, hfollows, hyields⟩ := hm.yields policy hstanding ⟨hreach, hopen, rfl⟩
  obtain ⟨y', hy', hfollows', hyields'⟩ :=
    hm'.yields policy hstanding' ⟨hreach', hopen', rfl⟩
  refine ⟨y, y', hy, hy', hfollows, hfollows', fun database hdatabase => ?_, fun hsame horder => ?_⟩
  · rw [hyields, if_neg hdatabase]
  obtain rfl : standing = standing' :=
    Option.some.inj (hstanding.symm.trans (hsame.trans hstanding'))
  have hshare : ∀ database, (database ∈ d.hosted ↔ database ∈ d'.hosted) →
      d.column database = d'.column database → y.share database = y'.share database := by
    intro database hiff hcolumn
    have hshares : (if database ∈ d.hosted then
          m.share policy home standing d.members.keys database (d.column database)
        else ⟨[], [], [], d.column database⟩) = if database ∈ d'.hosted then
          m.share policy home standing d'.members.keys database (d'.column database)
        else ⟨[], [], [], d'.column database⟩ := by
      rw [horder, hcolumn]
      exact if_congr hiff rfl rfl
    exact (hyields database).trans (hshares.trans (hyields' database).symm)
  refine ⟨hshare, fun hperm hentries => ?_⟩
  have hall : ∀ database, y.share database = y'.share database :=
    fun database => hshare database hperm.mem_iff (funext fun _ => hentries _)
  refine ⟨fun key => ?_, ?_, ?_, ?_⟩
  · exact congrFun (congrArg Share.column (hall key.database)) key.node
  · rw [hfollows.attempts, hfollows'.attempts]
    exact hperm.flatMap fun database _ => by rw [hall database]
  · rw [hfollows.findings, hfollows'.findings]
    exact hperm.flatMap fun database _ => by rw [hall database]
  · rw [hfollows.demotions, hfollows'.demotions]
    exact hperm.flatMap fun database _ => by rw [hall database]

/-- Copies of one database cannot be installed, and of the peers only one answers. -/
def choosy : Manners where
  installs source := if source.database = "Stock" then .error (.crash none) else .ok true
  rounds _ peers _ := if "n3" ∈ peers then some fun node => node = "n3" else none

/-- An installer of these manners, which takes its time. -/
def choosyInstaller (ρ : Type) : Installer (World ρ) := fun source => do
  Process.wait 5
  return choosy.installs source

/-- The answers to a heartbeat, or what stands for none. -/
def choosyReply (nobody : Reply Responses) (number : UInt64) (database : Database)
    (peers : List Node) : Reply Responses :=
  if "n3" ∈ peers then .ok (Table.empty.put "n3" ⟨"n3", database, number⟩) else nobody

/-- A transport of these manners, which numbers its messages. -/
def countingTransport : Transport (World UInt64) := fun database peers _ =>
  Process.update fun w =>
    (choosyReply (.ok .empty) w.own database peers, { w with own := w.own + 1 })

/-- A transport of these manners, which fails where the other one brings no answers. -/
def failingTransport : Transport (World Unit) := fun database peers _ =>
  .done (choosyReply (.error (.failure (.allUnreachable database))) 7 database peers)

theorem says_choosyReply {nobody : Reply Responses} (hnobody : Stall.Unanswered nobody)
    (number : UInt64) (database : Database) (peers : List Node) (timeoutMs : Nat) :
    Manners.Says peers (choosy.rounds database peers timeoutMs)
      (choosyReply nobody number database peers) := by
  by_cases hmem : "n3" ∈ peers
  · simp only [choosy, choosyReply, if_pos hmem]
    refine .answers rfl fun peer _ => ?_
    by_cases hpeer : "n3" = peer
    · subst hpeer
      rfl
    · simp [Table.contains, hpeer, Ne.symm hpeer]
  · simp only [choosy, choosyReply, if_neg hmem]
    exact .nobody hnobody

theorem choosy_kept_counting : choosy.Kept (choosyInstaller UInt64) countingTransport where
  installs _ _ := ⟨rfl, rfl⟩
  rounds _ _ _ w := ⟨says_choosyReply (.empty rfl) w.own _ _ _, rfl⟩

theorem choosy_kept_failing : choosy.Kept (choosyInstaller Unit) failingTransport where
  installs _ _ := ⟨rfl, rfl⟩
  rounds database _ _ _ := ⟨says_choosyReply (.allUnreachable database) 7 _ _ _, rfl⟩

/-- A node with one database, which two peers serve. -/
def oneDatabase : World UInt64 where
  directory := ((Directory.create "n1" .online).performAll [.enroll "n2" .online,
    .enroll "n3" .online, .host "Users", .setStatus ⟨"n1", "Users"⟩ .offline,
    .setStatus ⟨"n2", "Users"⟩ .online, .setStatus ⟨"n3", "Users"⟩ .online]).2
  own := 41

/-- The same node with a second database, which cannot be installed. -/
def twoDatabases : World Unit where
  directory := (oneDatabase.directory.performAll [.host "Stock",
    .setStatus ⟨"n1", "Stock"⟩ .offline, .setStatus ⟨"n2", "Stock"⟩ .online]).2
  own := ()

theorem column_twoDatabases :
    oneDatabase.directory.column "Users" = twoDatabases.directory.column "Users" := by
  let hosts := oneDatabase.directory.host "Stock"
  have hfirst := hosts.onlyOf_write ⟨"n1", "Stock"⟩ .offline
  have hsecond := (hosts.write ⟨"n1", "Stock"⟩ .offline).onlyOf_write ⟨"n2", "Stock"⟩ .online
  exact ((hfirst.trans hsecond).column_eq (by decide)).symm

/-- The copy that is installed and the silent peer that is set offline are the same in both. -/
theorem Cycle.independence_twoDatabases :
    ∃ y y', Yields (World.surroundings "n1" (choosyInstaller UInt64) countingTransport) ⟨true, 200⟩
        oneDatabase y ∧
      Yields (World.surroundings "n1" (choosyInstaller Unit) failingTransport) ⟨true, 200⟩
        twoDatabases y' ∧
      y.share "Users" = y'.share "Users" ∧
      (y'.share "Users").column "n2" = some .offline ∧
      y'.attempts = [⟨"Users", .recovered "n2"⟩,
        ⟨"Stock", .failed "n2" "install panicked: unknown panic"⟩] := by
  have hreach : oneDatabase.directory.Reachable "n1" := ⟨.online, _, rfl⟩
  have hreach' : twoDatabases.directory.Reachable "n1" := hreach.evolves ⟨_, rfl⟩
  obtain ⟨y, y', hy, hy', -, -, -, hsame⟩ := independence choosy_kept_counting choosy_kept_failing
    ⟨true, 200⟩ hreach rfl hreach' rfl
  obtain ⟨hshare, -⟩ := hsame rfl rfl
  refine ⟨y, y', hy, hy', hshare "Users" (by decide) column_twoDatabases, ?_, ?_⟩
  · obtain ⟨-, -, -, hend⟩ := hy'
    have hcopy := congrArg (fun x => x.2.directory.column "Users" "n2") hend
    exact hcopy.symm.trans (by decide +kernel)
  · obtain ⟨hrepair, -, -, -⟩ := hy'
    exact Except.ok.inj ((congrArg Prod.fst hrepair).symm.trans (by decide +kernel))

end Upkeep
