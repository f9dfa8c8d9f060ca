import Upkeep.Cycle
import Upkeep.Proofs.Program.History

/-!
# What a check may ask

`Permits` lists the requests of the three checks, each with what the check must have been told
before it makes it.  Nothing is supposed of the answers: they may contradict each other, and any of
them may be a failure.

* `Repair.check_permits`, `Audit.check_permits`, `Stall.check_permits` : the checks ask for
  nothing else.
* `Repair.check_permits` says besides what a repair check was told that comes to an end: of each
  hosted database the status of the local copy, and if that is offline, that it was set online
  or that a peer serves the database (`Repaired`).
-/

namespace Upkeep

/-- The request is about a copy on the home node. -/
def Request.ConcernsHome (home : Node) : Request → Prop
  | .status key | .setStatus key _ => key.node = home
  | _ => False

/-- The home node was said to be a full member. -/
def ToldOnline (h : List Told) : Prop := ⟨.homeStatus, .ok .online⟩ ∈ h

/-- It is the turn of a database: the home node was said to be a full member and to host it, and
the last that was asked about a copy on the home node is the status of its copy. -/
def AtTurn (home : Node) (database : Database) (status : CopyStatus) (h : List Told) : Prop :=
  ∃ before since hosted, h = before ++ ⟨.status ⟨home, database⟩, .ok (some status)⟩ :: since ∧
    ToldOnline before ∧ ⟨.databases, .ok hosted⟩ ∈ before ∧ database ∈ hosted ∧
    ∀ x ∈ since, ¬ x.request.ConcernsHome home

/-- Since a copy was said to have a status, things were put on record and no more. -/
def JustTold (key : CopyKey) (status : CopyStatus) (h : List Told) : Prop :=
  ∃ before since, h = before ++ ⟨.status key, .ok (some status)⟩ :: since ∧
    ∀ x ∈ since, ∃ n, x.request = .note n

/-- What a check may ask after what it was told. -/
inductive Permits (home : Node) (canOffline : Bool) : CheckName → List Told → Request → Prop
  /-- Any check may ask for the standing of the home node. -/
  | homeStatus {check : CheckName} {h : List Told} : Permits home canOffline check h .homeStatus
  /-- Any check may ask for the hosted databases. -/
  | databases {check : CheckName} {h : List Told} : Permits home canOffline check h .databases
  /-- Any check may ask for the status of a copy. -/
  | status {check : CheckName} {h : List Told} (key : CopyKey) :
      Permits home canOffline check h (.status key)
  /-- Any check may ask who serves a database. -/
  | onlineNodes {check : CheckName} {h : List Told} (database : Database) :
      Permits home canOffline check h (.onlineNodes database)
  /-- Any check may put things on record, but counts no cycle. -/
  | note {check : CheckName} {h : List Told} {n : Note} (hcycles : n ≠ .count .cycles)
      (hskipped : n ≠ .count .skippedCycles) : Permits home canOffline check h (.note n)
  /-- The repair check of a full member may have a copy installed. -/
  | install {h : List Told} {source : InstallSource} (honline : ToldOnline h) :
      Permits home canOffline .repair h (.install source)
  /-- The stall check of a full member may send a heartbeat. -/
  | heartbeat {h : List Told} {database : Database} {peers : List Node} {timeoutMs : Nat}
      (honline : ToldOnline h) :
      Permits home canOffline .stall h (.heartbeat database peers timeoutMs)
  /-- The repair check may set a local copy online that was offline at its turn. -/
  | restore {h : List Told} {database : Database} (hturn : AtTurn home database .offline h) :
      Permits home canOffline .repair h (.setStatus ⟨home, database⟩ .online)
  /-- If the settings allow it, the stall check may set the copy of a peer offline that has just
  been online, of a database whose local copy was online at its turn. -/
  | demote {h : List Told} {database : Database} {peer : Node} {nodes : List Node}
      (hallowed : canOffline = true) (hpeer : peer ≠ home)
      (hnodes : ⟨.onlineNodes database, .ok nodes⟩ ∈ h) (hmember : peer ∈ nodes)
      (hturn : AtTurn home database .online h) (hjust : JustTold ⟨peer, database⟩ .online h) :
      Permits home canOffline .stall h (.setStatus ⟨peer, database⟩ .offline)

/-- What was told of a database once its turn in a repair check is over. -/
def Repaired (home : Node) (database : Database) (h : List Told) : Prop :=
  ∃ status, ⟨.status ⟨home, database⟩, .ok status⟩ ∈ h ∧
    (status = some .offline →
      ⟨.setStatus ⟨home, database⟩ .online, .ok ()⟩ ∈ h ∨
        ∃ nodes, ⟨.onlineNodes database, .ok nodes⟩ ∈ h ∧ Directory.withoutHome home nodes ≠ [])

variable {home : Node} {canOffline : Bool} {database : Database} {status : CopyStatus}
  {h : List Told}

theorem ToldOnline.snoc (hh : ToldOnline h) (x : Told) : ToldOnline (h ++ [x]) :=
  List.mem_append_left _ hh

theorem AtTurn.snoc (hh : AtTurn home database status h) {x : Told}
    (hx : ¬ x.request.ConcernsHome home) : AtTurn home database status (h ++ [x]) := by
  obtain ⟨before, since, hosted, rfl, honline, hhosted, hmem, hsince⟩ := hh
  refine ⟨before, since ++ [x], hosted, by simp, honline, hhosted, hmem, fun y hy => ?_⟩
  obtain hy | hy := List.mem_append.1 hy
  · exact hsince y hy
  · exact List.mem_singleton.1 hy ▸ hx

theorem AtTurn.online (hh : AtTurn home database status h) : ToldOnline h := by
  obtain ⟨before, since, hosted, rfl, honline, -⟩ := hh
  exact List.mem_append_left _ honline

theorem JustTold.of_status (key : CopyKey) : JustTold key status
    (h ++ [⟨.status key, .ok (some status)⟩]) := ⟨h, [], rfl, fun _ hx => nomatch hx⟩

theorem JustTold.note {key : CopyKey} (hh : JustTold key status h) (n : Note) :
    JustTold key status (h ++ [⟨.note n, ()⟩]) := by
  obtain ⟨before, since, rfl, hsince⟩ := hh
  refine ⟨before, since ++ [⟨.note n, ()⟩], by simp, fun y hy => ?_⟩
  obtain hy | hy := List.mem_append.1 hy
  · exact hsince y hy
  · exact ⟨n, congrArg Told.request (List.mem_singleton.1 hy)⟩

theorem Repaired.snoc (hh : Repaired home database h) (x : Told) :
    Repaired home database (h ++ [x]) := by
  obtain ⟨status, hstatus, hrest⟩ := hh
  refine ⟨status, List.mem_append_left _ hstatus, fun hoffline => ?_⟩
  obtain hset | ⟨nodes, hnodes, hne⟩ := hrest hoffline
  · exact .inl (List.mem_append_left _ hset)
  · exact .inr ⟨nodes, List.mem_append_left _ hnodes, hne⟩

/-- What a check was told before it goes through the databases. -/
structure Introduced (hosted : List Database) (h : List Told) : Prop where
  /-- The home node was said to be a full member. -/
  online : ToldOnline h
  /-- These databases were said to be hosted. -/
  databases : ⟨.databases, .ok hosted⟩ ∈ h

theorem Introduced.snoc {hosted : List Database} (hh : Introduced hosted h) (x : Told) :
    Introduced hosted (h ++ [x]) :=
  ⟨hh.online.snoc x, List.mem_append_left _ hh.databases⟩

/-- The turn of a database begins when the status of its local copy is told. -/
theorem Introduced.atTurn {hosted : List Database} (hh : Introduced hosted h)
    (hmem : database ∈ hosted) :
    AtTurn home database status (h ++ [⟨.status ⟨home, database⟩, .ok (some status)⟩]) :=
  ⟨h, [], hosted, rfl, hh.online, hh.databases, hmem, fun _ hx => nomatch hx⟩

namespace Repair

/-- The terms on which the repair check asks. -/
abbrev terms (home : Node) (canOffline : Bool) : Terms (List Told) :=
  .heard (Permits home canOffline .repair)

theorem promote_permits {hosted : List Database} (hh : Introduced hosted h)
    (hturn : AtTurn home database .offline h) :
    Check.Meets (terms home canOffline)
      (fun _ h' => Introduced hosted h' ∧ ⟨.setStatus ⟨home, database⟩ .online, .ok ()⟩ ∈ h')
      (promote home database) h := by
  refine Check.meets_bind.2 (Check.heard_report (.note nofun nofun) ?_)
  refine Check.meets_bind.2 (Check.heard_setStatus (.restore (hturn.snoc id)) ?_)
  refine Check.meets_bind.2 (Check.heard_count (.note nofun nofun) (Check.meets_pure.2 ?_))
  exact ⟨((hh.snoc _).snoc _).snoc _, by simp⟩

theorem install_permits {hosted : List Database} (hh : Introduced hosted h)
    {source : InstallSource} (hturn : AtTurn home source.database .offline h) :
    Check.Meets (terms home canOffline) (fun _ h' => Introduced hosted h')
      (install home source) h := by
  refine Check.meets_bind.2 (Check.heard_report (.note nofun nofun) ?_)
  refine Check.meets_bind.2 (Check.heard_install (.install (hh.online.snoc _)) fun reply => ?_)
  split
  · refine Check.meets_bind.2 (Check.heard_setStatus (.restore ((hturn.snoc id).snoc id)) ?_)
    refine Check.meets_bind.2 (Check.heard_report (.note nofun nofun) ?_)
    refine Check.meets_bind.2 (Check.heard_count (.note nofun nofun) (Check.meets_pure.2 ?_))
    exact ((((hh.snoc _).snoc _).snoc _).snoc _).snoc _
  · refine Check.meets_bind.2 (Check.heard_report (.note nofun nofun) ?_)
    refine Check.meets_bind.2 (Check.heard_count (.note nofun nofun) (Check.meets_pure.2 ?_))
    exact (((hh.snoc _).snoc _).snoc _).snoc _

theorem recover_permits {hosted : List Database} (hh : Introduced hosted h)
    (hturn : AtTurn home database .offline h) :
    Check.Meets (terms home canOffline)
      (fun _ h' => Introduced hosted h' ∧ (⟨.setStatus ⟨home, database⟩ .online, .ok ()⟩ ∈ h' ∨
        ∃ nodes, ⟨.onlineNodes database, .ok nodes⟩ ∈ h' ∧ Directory.withoutHome home nodes ≠ []))
      (recover home database) h := by
  refine Check.meets_bind.2 (Check.meets_bind.2 (Check.heard_onlineNodes (.onlineNodes _) ?_))
  refine fun nodes => Check.meets_pure.2 ?_
  have hturn' := hturn.snoc (x := ⟨.onlineNodes database, .ok nodes⟩) id
  split
  -- nobody else serves the database, or somebody does
  · refine Check.meets_bind.2 ((promote_permits (hh.snoc _) hturn').mono ?_)
    exact fun outcome h' hh' => Check.meets_pure.2 ⟨hh'.1, .inl hh'.2⟩
  · rename_i first others hpeers
    have htold := Terms.heard_stable (P := Permits home canOffline .repair)
      (T := fun h => ⟨.onlineNodes database, .ok nodes⟩ ∈ h) fun h x => List.mem_append_left [x]
    refine Check.meets_bind.2 (((install_permits (hh.snoc _) hturn').keep htold (by simp)).mono ?_)
    refine fun outcome h' hh' => Check.meets_pure.2 ⟨hh'.1, .inr ⟨nodes, hh'.2, ?_⟩⟩
    simp [hpeers]

theorem repairDatabase_permits {hosted : List Database} (hh : Introduced hosted h)
    (hmem : database ∈ hosted) :
    Check.Meets (terms home canOffline)
      (fun _ h' => Introduced hosted h' ∧ Repaired home database h')
      (repairDatabase home database) h := by
  refine Check.meets_bind.2 (Check.heard_status (.status _) fun status => ?_)
  have htold := Terms.heard_stable (P := Permits home canOffline .repair)
    (T := fun h => ⟨.status ⟨home, database⟩, .ok status⟩ ∈ h) fun h x => List.mem_append_left [x]
  split
  · rename_i hoffline
    subst hoffline
    refine Check.meets_bind.2 (((recover_permits (hh.snoc _) (hh.atTurn hmem)).keep htold
      (by simp)).mono ?_)
    exact fun attempt h' hh' =>
      Check.meets_pure.2 ⟨hh'.1.1, some .offline, hh'.2, fun _ => hh'.1.2⟩
  · rename_i hother
    exact Check.meets_pure.2 ⟨hh.snoc _, status, by simp, fun h => absurd h hother⟩

end Repair

/-- **What the repair check may ask**, and what it was told once it has come to an end. -/
theorem Repair.check_permits (home : Node) (canOffline : Bool) :
    Check.Meets (.heard (Permits home canOffline .repair))
      (fun _ h => ∃ standing, ⟨.homeStatus, .ok standing⟩ ∈ h ∧ (standing = .online →
        ∃ hosted, ⟨.databases, .ok hosted⟩ ∈ h ∧ ∀ database ∈ hosted, Repaired home database h))
      (Repair.check home) [] := by
  refine Check.meets_bind.2 (Check.heard_homeStatus .homeStatus fun standing => ?_)
  split
  · rename_i honline
    obtain rfl : standing = .online := by simpa [MemberStatus.isOnline] using honline
    refine Check.meets_bind.2 (Check.heard_databases .databases fun hosted => ?_)
    -- what was told of one database stays told while the others are gone through
    have hrepaired := fun database => Terms.heard_stable (P := Permits home canOffline .repair)
      (T := Repaired home database) fun h x hh => hh.snoc x
    refine (Check.Meets.gather_all (I := Introduced hosted) hrepaired
      (fun database hmem h hh => repairDatabase_permits hh hmem) ?_).mono ?_
    · exact ⟨by simp [ToldOnline], by simp⟩
    · exact fun attempts h' hh' =>
        ⟨.online, hh'.1.online, fun _ => ⟨hosted, hh'.1.databases, hh'.2⟩⟩
  · rename_i hcut
    refine Check.meets_bind.2 (Check.heard_report (.note nofun nofun) (Check.meets_pure.2 ?_))
    refine ⟨standing, by simp, fun honline => ?_⟩
    subst honline
    exact absurd rfl hcut

/-- **What the audit may ask.** -/
theorem Audit.check_permits (home : Node) (canOffline : Bool) :
    Check.Meets (.heard (Permits home canOffline .audit)) (fun _ _ => True)
      (Audit.check home) [] := by
  refine Check.meets_bind.2 (Check.heard_databases .databases fun hosted => ?_)
  refine Check.Meets.gather (I := fun _ => True) (fun database _ h _ => ?_) trivial
  refine Check.meets_bind.2 (Check.heard_status (.status _) fun status => ?_)
  split
  · refine Check.meets_bind.2 (Check.heard_report (.note nofun nofun) ?_)
    exact Check.meets_bind.2 (Check.heard_count (.note nofun nofun) (Check.meets_pure.2 trivial))
  · exact Check.meets_pure.2 trivial

namespace Stall

/-- The terms on which the stall check asks. -/
abbrev terms (home : Node) (canOffline : Bool) : Terms (List Told) :=
  .heard (Permits home canOffline .stall)

/-- What a stall check was told when it decides about the peers of a database. -/
structure Judging (home : Node) (hosted : List Database) (database : Database)
    (nodes : List Node) (h : List Told) : Prop extends Introduced hosted h where
  /-- It is the turn of the database, and its local copy was online. -/
  turn : AtTurn home database .online h
  /-- These nodes were said to serve the database. -/
  nodes : ⟨.onlineNodes database, .ok nodes⟩ ∈ h

theorem Judging.snoc {hosted : List Database} {nodes : List Node}
    (hh : Judging home hosted database nodes h) {x : Told}
    (hx : ¬ x.request.ConcernsHome home) :
    Judging home hosted database nodes (h ++ [x]) :=
  ⟨hh.toIntroduced.snoc x, hh.turn.snoc hx, List.mem_append_left _ hh.nodes⟩

theorem apply_permits {policy : DemotionPolicy} {hosted : List Database} {nodes : List Node}
    {peer : Node} (hpeer : peer ≠ home) (hmember : peer ∈ nodes)
    (hh : Judging home hosted database nodes h) :
    Check.Meets (terms home policy.canOffline)
      (fun _ => Judging home hosted database nodes) (policy.apply home database peer) h := by
  refine Check.meets_bind.2 (Check.heard_status (.status _) fun status => ?_)
  have hh' := hh.snoc (x := ⟨.status ⟨peer, database⟩, .ok status⟩) hpeer
  split
  · rename_i honline
    subst honline
    split
    · rename_i hallowed
      refine Check.meets_bind.2 (Check.heard_report (.note nofun nofun) ?_)
      have hh'' := hh'.snoc
        (x := ⟨.note (.report (.peerDemoted home peer database policy.timeoutMs)), ()⟩) id
      refine Check.meets_bind.2 (Check.heard_setStatus ?_ ?_)
      -- between the status of the copy and the write there is one line on record
      · exact .demote hallowed hpeer hh''.nodes hmember hh''.turn
          ((JustTold.of_status ⟨peer, database⟩).note _)
      refine Check.meets_bind.2 (Check.heard_count (.note nofun nofun) (Check.meets_pure.2 ?_))
      exact (hh''.snoc (x := ⟨.setStatus ⟨peer, database⟩ .offline, .ok ()⟩) hpeer).snoc id
    · refine Check.meets_bind.2 (Check.heard_report (.note nofun nofun) ?_)
      refine Check.meets_bind.2 (Check.heard_count (.note nofun nofun) (Check.meets_pure.2 ?_))
      exact (hh'.snoc id).snoc id
  · exact Check.meets_pure.2 hh'

theorem judgeRound_permits {policy : DemotionPolicy} {hosted : List Database}
    {nodes : List Node} (hh : Judging home hosted database nodes h)
    (responses? : Option Responses) :
    Check.Meets (terms home policy.canOffline) (fun _ => Judging home hosted database nodes)
      (judgeRound home policy database (Directory.withoutHome home nodes) responses?) h := by
  cases responses? with
  | none =>
    refine Check.meets_bind.2 (Check.heard_report (.note nofun nofun) ?_)
    refine Check.meets_bind.2 (Check.heard_count (.note nofun nofun) (Check.meets_pure.2 ?_))
    exact (hh.snoc id).snoc id
  | some responses =>
    refine Check.meets_bind.2 (Check.heard_count (.note nofun nofun) ?_)
    -- deciding about one peer says nothing new about the home node, so the turn goes on
    refine Check.Meets.gather (fun peer hpeer h hh => ?_) (hh.snoc id)
    obtain ⟨hmember, hne⟩ := Directory.mem_withoutHome.1 (mem_silent.1 hpeer).1
    exact Check.meets_map.2 (apply_permits hne hmember hh)

theorem checkDatabase_permits {policy : DemotionPolicy} {hosted : List Database}
    (hh : Introduced hosted h) (hmem : database ∈ hosted) :
    Check.Meets (terms home policy.canOffline) (fun _ => Introduced hosted)
      (checkDatabase home policy database) h := by
  refine Check.meets_bind.2 (Check.heard_status (.status _) fun status => ?_)
  split
  · rename_i honline
    subst honline
    refine Check.meets_bind.2 (Check.meets_bind.2 (Check.heard_onlineNodes (.onlineNodes _) ?_))
    refine fun nodes => Check.meets_pure.2 ?_
    have hjudging : Judging home hosted database nodes
        (h ++ [⟨.status ⟨home, database⟩, .ok (some .online)⟩] ++
          [⟨.onlineNodes database, .ok nodes⟩]) :=
      ⟨(hh.snoc _).snoc _, (hh.atTurn hmem).snoc id, by simp⟩
    split
    · exact Check.meets_pure.2 hjudging.toIntroduced
    · refine Check.meets_bind.2 (Check.heard_report (.note nofun nofun) ?_)
      refine Check.meets_bind.2 (Check.heard_heartbeat ?_ fun reply => ?_)
      · exact .heartbeat (hjudging.online.snoc _)
      refine Check.meets_bind.2 (Check.meets_reply.2 fun responses? _ => ?_)
      refine (judgeRound_permits ((hjudging.snoc id).snoc id) responses?).mono ?_
      exact fun _ _ hh => hh.toIntroduced
  · exact Check.meets_pure.2 (hh.snoc _)

end Stall

/-- **What the stall check may ask.** -/
theorem Stall.check_permits (home : Node) (policy : DemotionPolicy) :
    Check.Meets (.heard (Permits home policy.canOffline .stall)) (fun _ _ => True)
      (Stall.check home policy) [] := by
  refine Check.meets_bind.2 (Check.heard_homeStatus .homeStatus fun standing => ?_)
  split
  · rename_i honline
    obtain rfl : standing = .online := by simpa [MemberStatus.isOnline] using honline
    refine Check.meets_bind.2 (Check.heard_databases .databases fun hosted => ?_)
    refine (Check.Meets.gather (I := Introduced hosted)
      (fun database hmem h hh => checkDatabase_permits hh hmem) ?_).mono fun _ _ _ => trivial
    exact ⟨by simp [ToldOnline], by simp⟩
  · exact Check.meets_bind.2 (Check.heard_report (.note nofun nofun) (Check.meets_pure.2 trivial))

end Upkeep
