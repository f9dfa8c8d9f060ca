import Upkeep.Proofs.Stall.Peers
import Upkeep.Proofs.Steady.Climate

/-!
# The turns of a cycle

In a given climate a cycle does to a directory what `Climate.cycle` says.  The repair check goes
through the hosted databases with `Climate.repairTurn`, the stall check goes through them with
`Climate.silentOf` and `Climate.judge`, up to the first whose round fails.

* `Directory.OnlyOf` : a turn changes copies of its own database only.
* `Climate.find?_judgeAll` : which copies the decisions about silent peers set offline.
* `Climate.mem_marks_repairCheck`, `Climate.mem_marks_stallCheck` : what marks the checks.
-/

namespace Upkeep

namespace Directory

/-- Who keeps the directory, the members, the hosted databases and whether it is shut are the
same. -/
structure SameFrame (d d' : Directory) : Prop where
  /-- The same node keeps it. -/
  home : d'.home = d.home
  /-- The members are the same. -/
  members : d'.members = d.members
  /-- The hosted databases are the same. -/
  hosted : d'.hosted = d.hosted
  /-- It is no more closed than it was. -/
  closed : d'.closed = d.closed

/-- Nothing but copies of a database has changed. -/
structure OnlyOf (database : Database) (d d' : Directory) : Prop extends SameFrame d d' where
  /-- The copies of any other database are as they were. -/
  entries : ∀ key, key.database ≠ database → d'.entries.find? key = d.entries.find? key

variable {d d' d'' : Directory} {database : Database}

theorem SameFrame.refl (d : Directory) : d.SameFrame d := ⟨rfl, rfl, rfl, rfl⟩

theorem SameFrame.trans (h : d.SameFrame d') (h' : d'.SameFrame d'') : d.SameFrame d'' :=
  ⟨h'.home.trans h.home, h'.members.trans h.members, h'.hosted.trans h.hosted,
    h'.closed.trans h.closed⟩

theorem OnlyOf.refl (database : Database) (d : Directory) : d.OnlyOf database d :=
  ⟨.refl d, fun _ _ => rfl⟩

theorem OnlyOf.trans (h : d.OnlyOf database d') (h' : d'.OnlyOf database d'') :
    d.OnlyOf database d'' :=
  ⟨h.toSameFrame.trans h'.toSameFrame, fun key hkey =>
    (h'.entries key hkey).trans (h.entries key hkey)⟩

theorem onlyOf_write (d : Directory) (key : CopyKey) (s : CopyStatus) :
    d.OnlyOf key.database (d.write key s) := by
  refine ⟨⟨rfl, rfl, rfl, rfl⟩, fun key' hkey' => ?_⟩
  have hne : key ≠ key' := by
    rintro rfl
    exact hkey' rfl
  simp [write, hne]

theorem find?_write (d : Directory) (key key' : CopyKey) (s : CopyStatus) :
    (d.write key s).entries.find? key' = if key = key' then some s else d.entries.find? key' :=
  d.entries.find?_put key key' s

theorem write_ne (d : Directory) (key : CopyKey) (s : CopyStatus) : d.write key s ≠ d := by
  intro h
  have hwrites : d.writes + 1 = d.writes := congrArg Directory.writes h
  omega

end Directory

namespace Scene

variable {α : Type}

/-- Goes through a list. -/
def all (f : α → Directory → Scene) : List α → Directory → Scene
  | [], d => ⟨d, []⟩
  | a :: rest, d => (f a d).next (all f rest)

variable {f : α → Directory → Scene}

/-- What each step keeps is kept. -/
theorem all_keep {P : Directory → Prop} :
    ∀ {l : List α} {d : Directory}, (∀ a ∈ l, ∀ d, P d → P (f a d).directory) → P d →
      P (all f l d).directory
  | [], _, _, hd => hd
  | a :: rest, d, h, hd =>
    all_keep (l := rest) (fun a' ha' => h a' (List.mem_cons_of_mem a ha'))
      (h a List.mem_cons_self d hd)

/-- A mark is one of some step. -/
theorem mem_marks_all {r : Request} :
    ∀ {l : List α} {d : Directory}, r ∈ (all f l d).marks → ∃ a d', r ∈ (f a d').marks
  | [], _, hr => nomatch hr
  | a :: _, d, hr => by
    obtain hr | hr := List.mem_append.1 hr
    · exact ⟨a, d, hr⟩
    · exact mem_marks_all hr

/-- What the step of a member of a list makes of a directory is so in the end, if the steps of the
others keep it so before and after. -/
theorem all_establish {P Q : Directory → Prop} {a : α} (hstep : ∀ d, P d → Q (f a d).directory)
    (hbefore : ∀ b, b ≠ a → ∀ d, P d → P (f b d).directory)
    (hafter : ∀ b, b ≠ a → ∀ d, Q d → Q (f b d).directory) :
    ∀ {l : List α} {d : Directory}, l.Nodup → a ∈ l → P d → Q (all f l d).directory
  | first :: rest, d, hnodup, hmem, hd => by
    obtain ⟨hnew, hnodup⟩ := List.nodup_cons.1 hnodup
    obtain rfl | hmem := List.mem_cons.1 hmem
    · exact all_keep (l := rest) (fun b hb => hafter b fun h => hnew (h ▸ hb)) (hstep d hd)
    · refine all_establish (l := rest) hstep hbefore hafter hnodup hmem (hbefore first ?_ d hd)
      rintro rfl
      exact hnew hmem

end Scene

namespace Climate

section Turns

/-! ### Turns -/

variable (c : Climate) (policy : DemotionPolicy) (home : Node)

/-- Whether an install from a source fails. -/
def fails (source : InstallSource) : Bool :=
  (Repair.failureReason (c.installs source)).isSome

/-- The turn of a database in the repair check. -/
def repairTurn (database : Database) (d : Directory) : Scene :=
  let key : CopyKey := ⟨home, database⟩
  if d.entries.find? key = some .offline then
    match Stall.peersOf home d database with
    | [] => ⟨d.write key .online, [.setStatus key .online]⟩
    | first :: others =>
      let source : InstallSource := ⟨database, first, first :: others⟩
      if c.fails source then ⟨d, [.install source]⟩
      else ⟨d.write key .online, [.install source, .setStatus key .online]⟩
  else ⟨d, []⟩

/-- The repair check. -/
def repairCheck (d : Directory) : Scene :=
  if ((d.members.find? d.home).getD .offline).isOnline then
    Scene.all (c.repairTurn home) d.hosted d
  else ⟨d, []⟩

/-- The peers that the round of a database shows to be silent; there are none if no heartbeat is
sent or nobody answers. -/
def silentOf (database : Database) (d : Directory) : Reply (List Node) :=
  if Stall.holdsRound home d database then
    match c.rounds database with
    | .error a => (Stall.answers? (.error a)).map fun _ => []
    | .ok responds =>
      let peers := Stall.peersOf home d database
      .ok (if peers.any responds then peers.filter fun peer => !responds peer else [])
  else .ok []

/-- What is done about a silent peer. -/
def judge (database : Database) (peer : Node) (d : Directory) : Scene :=
  let key : CopyKey := ⟨peer, database⟩
  if d.entries.find? key = some .online then
    if policy.canOffline then ⟨d.write key .offline, [.setStatus key .offline]⟩
    else ⟨d, [.note (.report (.demotionSuppressed home peer database policy.timeoutMs))]⟩
  else ⟨d, []⟩

/-- The turns of databases in the stall check, up to the first whose round fails. -/
def stallRun : List Database → Directory → Reply Unit × Scene
  | [], d => (.ok (), ⟨d, []⟩)
  | database :: rest, d =>
    match c.silentOf home database d with
    | .error a => (.error a, ⟨d, []⟩)
    | .ok quiet =>
      let b := Scene.all (judge policy home database) quiet d
      ((stallRun rest b.directory).1, b.next fun d => (stallRun rest d).2)

/-- The stall check. -/
def stallCheck (d : Directory) : Reply Unit × Scene :=
  if ((d.members.find? d.home).getD .offline).isOnline then c.stallRun policy home d.hosted d
  else (.ok (), ⟨d, []⟩)

/-- What marks the failure of a check, if it failed. -/
def faults (name : CheckName) : Reply Unit → List Request
  | .ok _ => []
  | .error a =>
    if a.toFailure.isTransportClosed then [] else [.note (.count (.checkErrors name.label))]

/-- Whether a check found the cluster shutting down. -/
def closes : Reply Unit → Bool
  | .ok _ => false
  | .error a => a.toFailure.isTransportClosed

/-- How a cycle ends. -/
def outcome (d : Directory) : CycleOutcome :=
  if closes (c.stallCheck policy home (c.repairCheck home d).directory).1 then .interrupted
  else .completed

/-- What a cycle does. -/
def cycle (d : Directory) : Scene :=
  (c.repairCheck home d).next fun d =>
    let x := c.stallCheck policy home d
    ⟨x.2.directory, x.2.marks ++ faults .stall x.1⟩

end Turns

variable {c : Climate} {policy : DemotionPolicy} {home : Node} {d d' : Directory}
  {database database' : Database} {r : Request}

section Repairs

/-! ### The repair check -/

theorem onlyOf_repairTurn (database : Database) (d : Directory) :
    d.OnlyOf database (c.repairTurn home database d).directory := by
  have hwrite := d.onlyOf_write ⟨home, database⟩ .online
  simp only [repairTurn]
  split
  · split
    · exact hwrite
    · split
      · exact .refl database d
      · exact hwrite
  · exact .refl database d

theorem repairTurn_of_not_offline (h : d.entries.find? ⟨home, database⟩ ≠ some .offline) :
    c.repairTurn home database d = ⟨d, []⟩ := if_neg h

/-- The turn of a database is marked by an install, and by its local copy set online. -/
theorem mem_marks_repairTurn (hr : r ∈ (c.repairTurn home database d).marks) :
    (∃ source, r = .install source) ∨ r = .setStatus ⟨home, database⟩ .online := by
  simp only [repairTurn] at hr
  split at hr
  · split at hr
    · exact .inr (List.mem_singleton.1 hr)
    · split at hr
      · exact .inl ⟨_, List.mem_singleton.1 hr⟩
      · obtain rfl | hr := List.mem_cons.1 hr
        · exact .inl ⟨_, rfl⟩
        · exact .inr (List.mem_singleton.1 hr)
  · cases hr

theorem mem_marks_repairCheck (hr : r ∈ (c.repairCheck home d).marks) :
    (∃ source, r = .install source) ∨ ∃ database, r = .setStatus ⟨home, database⟩ .online := by
  unfold repairCheck at hr
  split at hr
  · obtain ⟨database, d', hr⟩ := Scene.mem_marks_all hr
    exact (mem_marks_repairTurn hr).imp_right fun h => ⟨database, h⟩
  · cases hr

end Repairs

section Stalls

/-! ### The stall check -/

variable {quiet : List Node} {peer : Node}

theorem onlyOf_judge (policy : DemotionPolicy) (home : Node) (database : Database) (peer : Node)
    (d : Directory) :
    d.OnlyOf database (judge policy home database peer d).directory := by
  simp only [judge]
  split
  · split
    · exact d.onlyOf_write ⟨peer, database⟩ .offline
    · exact .refl database d
  · exact .refl database d

theorem onlyOf_judgeAll (policy : DemotionPolicy) (home : Node) (database : Database)
    (quiet : List Node) (d : Directory) :
    d.OnlyOf database (Scene.all (judge policy home database) quiet d).directory :=
  Scene.all_keep (fun peer _ d' h => h.trans (onlyOf_judge policy home database peer d'))
    (.refl database d)

/-- A copy that is online is set offline if that is allowed; any other keeps its status. -/
theorem find?_judge (policy : DemotionPolicy) (home : Node) (database : Database) (peer node : Node)
    (d : Directory) :
    (judge policy home database peer d).directory.entries.find? ⟨node, database⟩ =
      if policy.canOffline = true ∧ node = peer ∧ d.entries.find? ⟨node, database⟩ = some .online
      then some .offline else d.entries.find? ⟨node, database⟩ := by
  simp only [judge]
  by_cases hsame : node = peer
  · subst hsame
    split
    · split <;> simp_all [Directory.find?_write]
    · simp_all
  · have hne : ¬peer = node := Ne.symm hsame
    split
    · split <;> simp [Directory.find?_write, hsame, hne]
    · simp [hsame]

/-- **The copies of silent peers that are online are set offline if that is allowed**; any other
keeps its status. -/
theorem find?_judgeAll (policy : DemotionPolicy) (home : Node) (database : Database) (node : Node) :
    ∀ (quiet : List Node) (d : Directory),
      (Scene.all (judge policy home database) quiet d).directory.entries.find? ⟨node, database⟩ =
        if policy.canOffline = true ∧ node ∈ quiet ∧ d.entries.find? ⟨node, database⟩ = some .online
        then some .offline else d.entries.find? ⟨node, database⟩
  | [], d => by simp [Scene.all]
  | peer :: rest, d => by
    have hrest := find?_judgeAll policy home database node rest
      (judge policy home database peer d).directory
    rw [find?_judge] at hrest
    simp only [Scene.all, Scene.next, hrest, List.mem_cons]
    -- a copy that was set offline is not online any more
    generalize d.entries.find? ⟨node, database⟩ = before
    by_cases hdone : policy.canOffline = true ∧ node = peer ∧ before = some .online
    · obtain ⟨hcan, hsame, hbefore⟩ := hdone
      simp [hcan, hsame, hbefore]
    · rw [if_neg hdone]
      grind

/-- Without leave to set copies offline nothing is changed. -/
theorem judgeAll_of_not (hcan : policy.canOffline = false) (quiet : List Node) (d : Directory) :
    (Scene.all (judge policy home database) quiet d).directory = d := by
  refine Scene.all_keep (P := (· = d)) (fun peer _ d' h => ?_) rfl
  simp only [judge, hcan, Bool.false_eq_true, if_false]
  split <;> exact h

/-- Who is silent depends on the copies of the database only. -/
theorem silentOf_of_onlyOf (h : d.OnlyOf database' d') (hne : database ≠ database') :
    c.silentOf home database d' = c.silentOf home database d := by
  have hentries : ∀ node, d'.entries.find? ⟨node, database⟩ = d.entries.find? ⟨node, database⟩ :=
    fun node => h.entries _ hne
  simp only [silentOf, Stall.holdsRound_congr home h.members hentries,
    Stall.peersOf_congr home h.members hentries]

/-- A round without answers says of nobody that it is silent. -/
theorem quiet_of_error {a : Abort} (hrounds : c.rounds database = .error a)
    (h : c.silentOf home database d = .ok quiet) : quiet = [] := by
  simp only [silentOf, hrounds] at h
  split at h
  · cases hanswers : Stall.answers? (.error a) with
    | ok responses? =>
      rw [hanswers] at h
      exact (Except.ok.inj h).symm
    | error a' =>
      rw [hanswers] at h
      exact nomatch h
  · exact (Except.ok.inj h).symm

/-- The silent peers are those that were asked and do not answer. -/
theorem quiet_of_ok {responds : Node → Bool} (hrounds : c.rounds database = .ok responds)
    (h : c.silentOf home database d = .ok quiet) (hne : quiet ≠ []) :
    quiet = (Stall.peersOf home d database).filter fun peer => !responds peer := by
  simp only [silentOf, hrounds] at h
  split at h
  · rw [← Except.ok.inj h]
    split at h
    · rw [if_pos ‹_›]
    · exact absurd (Except.ok.inj h).symm hne
  · exact absurd (Except.ok.inj h).symm hne

theorem mem_peersOf_of_silentOf (h : c.silentOf home database d = .ok quiet) {peer : Node}
    (hpeer : peer ∈ quiet) : peer ∈ Stall.peersOf home d database := by
  cases hrounds : c.rounds database with
  | error a =>
    rw [quiet_of_error hrounds h] at hpeer
    exact nomatch hpeer
  | ok responds =>
    rw [quiet_of_ok hrounds h (List.ne_nil_of_mem hpeer)] at hpeer
    exact (List.mem_filter.1 hpeer).1

/-- What one turn after another keeps the stall check keeps. -/
theorem stallRun_keep {P : Directory → Prop}
    (h : ∀ database quiet d, c.silentOf home database d = .ok quiet → P d →
      P (Scene.all (judge policy home database) quiet d).directory) :
    ∀ (l : List Database) (d : Directory), P d → P (c.stallRun policy home l d).2.directory
  | [], _, hd => hd
  | database :: rest, d, hd => by
    rw [stallRun]
    split
    · exact hd
    · rename_i quiet hquiet
      exact stallRun_keep h rest _ (h database quiet d hquiet hd)

/-- A decision is marked by a write if copies may be set offline, and by the report of a suppressed
demotion if they may not. -/
theorem mem_marks_judge (hr : r ∈ (judge policy home database peer d).marks) :
    r = if policy.canOffline then .setStatus ⟨peer, database⟩ .offline
      else .note (.report (.demotionSuppressed home peer database policy.timeoutMs)) := by
  simp only [judge] at hr
  split at hr
  · cases hcan : policy.canOffline <;> rw [hcan] at hr <;> exact List.mem_singleton.1 hr
  · cases hr

theorem mem_marks_stallRun {l : List Database} (hr : r ∈ (c.stallRun policy home l d).2.marks) :
    ∃ peer database, r = if policy.canOffline then .setStatus ⟨peer, database⟩ .offline
      else .note (.report (.demotionSuppressed home peer database policy.timeoutMs)) := by
  induction l generalizing d with
  | nil => exact nomatch hr
  | cons database rest ih =>
    rw [stallRun] at hr
    split at hr
    · exact nomatch hr
    · obtain hr | hr := List.mem_append.1 hr
      · obtain ⟨peer, d', hr⟩ := Scene.mem_marks_all hr
        exact ⟨peer, database, mem_marks_judge hr⟩
      · exact ih hr

theorem mem_marks_stallCheck (hr : r ∈ (c.stallCheck policy home d).2.marks) :
    ∃ peer database, r = if policy.canOffline then .setStatus ⟨peer, database⟩ .offline
      else .note (.report (.demotionSuppressed home peer database policy.timeoutMs)) := by
  unfold stallCheck at hr
  split at hr
  · exact mem_marks_stallRun hr
  · cases hr

/-- If no round fails, the turns of the stall check are taken one after another. -/
theorem stallRun_eq_all {quiet : Database → Directory → List Node}
    (h : ∀ database d, c.silentOf home database d = .ok (quiet database d)) (l : List Database)
    (d : Directory) : c.stallRun policy home l d =
      (.ok (), Scene.all (fun database d => Scene.all (judge policy home database)
        (quiet database d) d) l d) := by
  induction l generalizing d with
  | nil => rfl
  | cons database rest ih => simp only [stallRun, h, ih, Scene.all, Scene.next]

end Stalls

section Cycles

/-! ### The cycle -/

theorem sameFrame_repairCheck (d : Directory) : d.SameFrame (c.repairCheck home d).directory := by
  unfold repairCheck
  split
  · exact Scene.all_keep (P := d.SameFrame)
      (fun database _ d' h => h.trans (onlyOf_repairTurn database d').toSameFrame) (.refl d)
  · exact .refl d

theorem sameFrame_stallCheck (d : Directory) :
    d.SameFrame (c.stallCheck policy home d).2.directory := by
  unfold stallCheck
  split
  · exact stallRun_keep (P := d.SameFrame) (fun database quiet d' _ h =>
      h.trans (onlyOf_judgeAll policy home database quiet d').toSameFrame) d.hosted d (.refl d)
  · exact .refl d

theorem sameFrame_cycle (d : Directory) : d.SameFrame (c.cycle policy home d).directory :=
  (sameFrame_repairCheck d).trans (sameFrame_stallCheck _)

/-- What marks a failure is nothing, or that it was counted. -/
theorem mem_faults {name : CheckName} {reply : Reply Unit} (hr : r ∈ faults name reply) :
    r = .note (.count (.checkErrors name.label)) := by
  unfold faults at hr
  split at hr
  · exact nomatch hr
  · split at hr
    · exact nomatch hr
    · exact List.mem_singleton.1 hr

/-- A check that did not fail leaves no mark of a failure in a cycle. -/
theorem not_mem_marks_cycle
    (hok : (c.stallCheck policy home (c.repairCheck home d).directory).1 = .ok ()) (label : String) :
    .note (.count (.checkErrors label)) ∉ (c.cycle policy home d).marks := by
  intro hmem
  simp only [cycle, Scene.next, hok, faults, List.append_nil] at hmem
  obtain hmem | hmem := List.mem_append.1 hmem
  · obtain ⟨source, h⟩ | ⟨database, h⟩ := mem_marks_repairCheck hmem <;> cases h
  · obtain ⟨peer, database, h⟩ := mem_marks_stallCheck hmem
    split at h <;> cases h

end Cycles

end Climate

end Upkeep
