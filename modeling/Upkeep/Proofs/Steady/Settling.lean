import Upkeep.Proofs.Steady.Turns

/-!
# What a cycle settles

In a given climate a second cycle has nothing left to change.

* `Climate.repairTurn_again`, `Climate.silentOf_again` : after its turn a database is settled.
* `Climate.KeepsSettled` : what is settled stays so while the turns of other databases, and those of
  the stall check, are taken.
* `Climate.cycle_again` : **a second cycle finds nothing to change.**  It asks again for the installs
  that failed, and puts on record again what it did not change.
-/

namespace Upkeep

/-- The database of which a copy is to be installed. -/
def Request.installed? : Request → Option Database
  | .install source => some source.database
  | _ => none

namespace Climate

/-- Whether a mark of one cycle is one of the next: what was written is written, and an install that
succeeded is not asked for again. -/
def persists (c : Climate) : Request → Bool
  | .setStatus _ _ => false
  | .install source => c.fails source
  | _ => true

variable {c : Climate} {policy : DemotionPolicy} {home : Node} {d d' : Directory}
  {database database' : Database} {ms : List Request}

section Repairs

/-! ### The repair check -/

/-- **After its turn a local copy is settled**: it is online, or the install that failed is asked
for again. -/
theorem repairTurn_again (database : Database) (d : Directory) :
    let b := c.repairTurn home database d
    c.repairTurn home database b.directory = ⟨b.directory, b.marks.filter c.persists⟩ := by
  intro b
  have hwritten : c.repairTurn home database (d.write ⟨home, database⟩ .online) =
      ⟨d.write ⟨home, database⟩ .online, []⟩ :=
    repairTurn_of_not_offline (by simp [Directory.find?_write])
  by_cases hoffline : d.entries.find? ⟨home, database⟩ = some .offline
  · cases hpeers : Stall.peersOf home d database with
    | nil =>
      have hb : b = ⟨d.write ⟨home, database⟩ .online, [.setStatus ⟨home, database⟩ .online]⟩ := by
        simp only [b, repairTurn, if_pos hoffline, hpeers]
      rw [hb]
      exact hwritten
    | cons first others =>
      cases hfails : c.fails ⟨database, first, first :: others⟩ with
      | true =>
        have hb : b = ⟨d, [.install ⟨database, first, first :: others⟩]⟩ := by
          simp only [b, repairTurn, if_pos hoffline, hpeers, hfails, if_true]
        have hfilter : b.marks.filter c.persists = b.marks := by
          simp [hb, persists, hfails]
        rw [hfilter]
        have hd : b.directory = d := congrArg Scene.directory hb
        rw [hd]
        exact congrArg (Scene.mk · b.marks) hd
      | false =>
        have hb : b = ⟨d.write ⟨home, database⟩ .online,
            [.install ⟨database, first, first :: others⟩, .setStatus ⟨home, database⟩ .online]⟩ := by
          simp only [b, repairTurn, if_pos hoffline, hpeers, hfails, Bool.false_eq_true, if_false]
        rw [hb]
        simpa [persists, hfails] using hwritten
  · have hb : b = ⟨d, []⟩ := repairTurn_of_not_offline hoffline
    rw [hb]
    exact repairTurn_of_not_offline hoffline

/-- What is settled of the local copies stays settled. -/
def KeepsSettled (c : Climate) (home : Node) (d d' : Directory) : Prop :=
  ∀ database ms, c.repairTurn home database d = ⟨d, ms⟩ →
    c.repairTurn home database d' = ⟨d', ms⟩

theorem KeepsSettled.refl (c : Climate) (home : Node) (d : Directory) : KeepsSettled c home d d :=
  fun _ _ h => h

theorem KeepsSettled.trans {d'' : Directory} (h : KeepsSettled c home d d')
    (h' : KeepsSettled c home d' d'') : KeepsSettled c home d d'' :=
  fun database ms hd => h' database ms (h database ms hd)

/-- Changes of other copies leave a settled database settled. -/
theorem repairTurn_of_onlyOf (h : d.OnlyOf database' d') (hne : database ≠ database')
    (hd : c.repairTurn home database d = ⟨d, ms⟩) : c.repairTurn home database d' = ⟨d', ms⟩ := by
  have hentries : ∀ node, d'.entries.find? ⟨node, database⟩ = d.entries.find? ⟨node, database⟩ :=
    fun node => h.entries _ hne
  have hpeers := Stall.peersOf_congr home h.members hentries
  simp only [repairTurn, hentries, hpeers] at hd ⊢
  -- a turn that leaves the directory as it is does not write
  split at hd
  · rename_i hoffline
    rw [if_pos hoffline]
    split at hd
    · exact absurd (congrArg Scene.directory hd) (d.write_ne _ _)
    · split at hd
      · rename_i hfails
        rw [if_pos hfails, (Scene.mk.inj hd).2]
      · exact absurd (congrArg Scene.directory hd) (d.write_ne _ _)
  · rename_i hoffline
    rw [if_neg hoffline, (Scene.mk.inj hd).2]

theorem keepsSettled_repairTurn (database : Database) (d : Directory) :
    KeepsSettled c home d (c.repairTurn home database d).directory := by
  intro database' ms hd
  by_cases hne : database' = database
  · subst hne
    rw [hd]
    exact hd
  · exact repairTurn_of_onlyOf (onlyOf_repairTurn database d) hne hd

/-- **A settled repair check** asks again for the installs that failed, and for nothing else. -/
theorem repairRun_again :
    ∀ (l : List Database) (d : Directory) {d' : Directory},
      KeepsSettled c home (Scene.all (c.repairTurn home) l d).directory d' →
      Scene.all (c.repairTurn home) l d' =
        ⟨d', (Scene.all (c.repairTurn home) l d).marks.filter c.persists⟩
  | [], _, _, _ => rfl
  | database :: rest, d, d', hkeeps => by
    have hkept : KeepsSettled c home (c.repairTurn home database d).directory
        (Scene.all (c.repairTurn home) rest (c.repairTurn home database d).directory).directory :=
      Scene.all_keep (fun database' _ d'' h => h.trans (keepsSettled_repairTurn database' d''))
        (.refl c home _)
    have hfirst := (hkept.trans hkeeps) database _ (repairTurn_again database d)
    have hrest := repairRun_again rest (c.repairTurn home database d).directory hkeeps
    simp only [Scene.all, Scene.next, hfirst, hrest, List.filter_append]

end Repairs

section Stalls

/-! ### The stall check -/

variable {quiet : List Node}

/-- **After its turn a database is settled**: whoever is still asked answers. -/
theorem silentOf_again (hcan : policy.canOffline = true)
    (h : c.silentOf home database d = .ok quiet) :
    c.silentOf home database (Scene.all (judge policy home database) quiet d).directory =
      .ok [] := by
  by_cases hnone : quiet = []
  · subst hnone
    exact h
  · have honly := onlyOf_judgeAll policy home database quiet d
    have hjudged := fun node => find?_judgeAll policy home database node quiet d
    generalize (Scene.all (judge policy home database) quiet d).directory = d' at honly hjudged
    cases hrounds : c.rounds database with
    | error a => exact absurd (quiet_of_error hrounds h) hnone
    | ok responds =>
      have hquiet := quiet_of_ok hrounds h hnone
      have hanswers : (Stall.peersOf home d' database).filter (fun peer => !responds peer) = [] := by
        refine List.filter_eq_nil_iff.2 fun peer hpeer hsilent => ?_
        obtain ⟨⟨hmember, honline⟩, hother⟩ := Stall.mem_peersOf.1 hpeer
        rw [hjudged] at honline
        split at honline
        · cases honline
        · -- who is online after the turn was so before it, and is silent, so it was set offline
          rename_i hnot
          rw [honly.members] at hmember
          refine hnot ⟨hcan, ?_, honline⟩
          rw [hquiet]
          exact List.mem_filter.2 ⟨Stall.mem_peersOf.2 ⟨⟨hmember, honline⟩, hother⟩, hsilent⟩
      simp only [silentOf, hrounds, hanswers]
      split <;> simp

/-- The turns of the stall check leave the local copies settled. -/
theorem keepsSettled_judgeAll (h : c.silentOf home database d = .ok quiet) :
    KeepsSettled c home d (Scene.all (judge policy home database) quiet d).directory := by
  intro database' ms hd
  by_cases hne : database' = database
  · subst hne
    by_cases hoffline : d.entries.find? ⟨home, database'⟩ = some .offline
    · -- no heartbeat is sent for a database whose local copy is offline
      have hidle : Stall.holdsRound home d database' = false := by
        simp [Stall.holdsRound, hoffline]
      have hnone : quiet = [] := by
        simp only [silentOf, hidle, Bool.false_eq_true, if_false] at h
        exact (Except.ok.inj h).symm
      subst hnone
      exact hd
    · -- the home node is none of its peers
      have hother : home ∉ quiet := fun hmem =>
        (Stall.mem_peersOf.1 (mem_peersOf_of_silentOf h hmem)).2 rfl
      rw [repairTurn_of_not_offline hoffline] at hd
      rw [← (Scene.mk.inj hd).2]
      refine repairTurn_of_not_offline ?_
      rwa [find?_judgeAll, if_neg fun h => hother h.2.1]
  · exact repairTurn_of_onlyOf (onlyOf_judgeAll policy home database quiet d) hne hd

/-- With leave to set copies offline a settled stall check does nothing. -/
theorem stallRun_again_of_can (hcan : policy.canOffline = true) :
    ∀ (l : List Database) (d : Directory),
      let x := c.stallRun policy home l d
      c.stallRun policy home l x.2.directory = (x.1, ⟨x.2.directory, []⟩)
  | [], _ => rfl
  | database :: rest, d => by
    intro x
    cases hturn : c.silentOf home database d with
    | error a =>
      have hx : x = (.error a, ⟨d, []⟩) := by simp only [x, stallRun, hturn]
      rw [hx]
      simp only [stallRun, hturn]
    | ok quiet =>
      let d' := (Scene.all (judge policy home database) quiet d).directory
      have hx : x.1 = (c.stallRun policy home rest d').1 ∧
          x.2.directory = (c.stallRun policy home rest d').2.directory := by
        simp only [x, stallRun, hturn, d', Scene.next, and_self]
      -- nobody is silent after the turn, nor after those of the other databases
      have hsilent : c.silentOf home database x.2.directory = .ok [] := by
        rw [hx.2]
        refine stallRun_keep (P := fun d => c.silentOf home database d = .ok [])
          (fun database' quiet' d'' hquiet' h => ?_) rest d' (silentOf_again hcan hturn)
        by_cases hne : database = database'
        · subst hne
          exact silentOf_again hcan hquiet'
        · exact (silentOf_of_onlyOf (onlyOf_judgeAll policy home database' quiet' d'') hne).trans h
      have hrest := stallRun_again_of_can hcan rest d'
      dsimp only at hrest
      rw [← hx.1, ← hx.2] at hrest
      simp only [stallRun, hsilent, Scene.all, Scene.next, hrest, List.append_nil]

/-- **A settled stall check** puts on record again what it did not change, and does nothing else. -/
theorem stallRun_again (l : List Database) (d : Directory) :
    let x := c.stallRun policy home l d
    c.stallRun policy home l x.2.directory =
      (x.1, ⟨x.2.directory, x.2.marks.filter c.persists⟩) := by
  intro x
  have hmarks : ∀ r ∈ x.2.marks, c.persists r = !policy.canOffline := by
    intro r hr
    obtain ⟨peer, database, rfl⟩ := mem_marks_stallRun hr
    cases policy.canOffline <;> rfl
  cases hcan : policy.canOffline with
  | true =>
    have hnone : x.2.marks.filter c.persists = [] :=
      List.filter_eq_nil_iff.2 fun r hr => by simp [hmarks r hr, hcan]
    rw [hnone]
    exact stallRun_again_of_can hcan l d
  | false =>
    have hsame : x.2.directory = d :=
      stallRun_keep (P := (· = d)) (fun database quiet d' _ h =>
        (judgeAll_of_not hcan quiet d').trans h) l d rfl
    have hall : x.2.marks.filter c.persists = x.2.marks :=
      List.filter_eq_self.2 fun r hr => by simp [hmarks r hr, hcan]
    rw [hall, hsame]
    show x = _
    rw [← hsame]

end Stalls

section Cycles

/-! ### The cycle -/

theorem keepsSettled_stallCheck (d : Directory) :
    KeepsSettled c home d (c.stallCheck policy home d).2.directory := by
  unfold stallCheck
  split
  · exact stallRun_keep (P := KeepsSettled c home d)
      (fun database quiet d' hquiet h => h.trans (keepsSettled_judgeAll hquiet)) _ _
      (.refl c home d)
  · exact .refl c home d

theorem repairCheck_again (hframe : d.SameFrame d')
    (hkeeps : KeepsSettled c home (c.repairCheck home d).directory d') :
    c.repairCheck home d' = ⟨d', (c.repairCheck home d).marks.filter c.persists⟩ := by
  unfold repairCheck at hkeeps ⊢
  rw [hframe.members, hframe.home, hframe.hosted]
  split
  · rename_i honline
    rw [if_pos honline] at hkeeps
    exact repairRun_again d.hosted d hkeeps
  · rfl

theorem stallCheck_again (d : Directory) :
    let x := c.stallCheck policy home d
    c.stallCheck policy home x.2.directory =
      (x.1, ⟨x.2.directory, x.2.marks.filter c.persists⟩) := by
  intro x
  have hframe : d.SameFrame x.2.directory := sameFrame_stallCheck d
  unfold stallCheck
  rw [hframe.members, hframe.home, hframe.hosted]
  split
  · rename_i honline
    have hx : x = c.stallRun policy home d.hosted d := if_pos honline
    rw [hx]
    exact stallRun_again d.hosted d
  · rename_i honline
    have hx : x = (.ok (), ⟨d, []⟩) := if_neg honline
    rw [hx]
    rfl

/-- **A second cycle finds nothing to change.**  Its marks are those of the first that persist. -/
theorem cycle_again (d : Directory) :
    let b := c.cycle policy home d
    c.cycle policy home b.directory = ⟨b.directory, b.marks.filter c.persists⟩ := by
  intro b
  let d₁ := (c.repairCheck home d).directory
  let x := c.stallCheck policy home d₁
  have hb : b = ⟨x.2.directory, (c.repairCheck home d).marks ++ (x.2.marks ++ faults .stall x.1)⟩ :=
    rfl
  -- the stall check leaves settled what the repair check settled
  have hrepair : c.repairCheck home x.2.directory =
      ⟨x.2.directory, (c.repairCheck home d).marks.filter c.persists⟩ :=
    repairCheck_again (sameFrame_cycle d) (keepsSettled_stallCheck d₁)
  have hstall : c.stallCheck policy home x.2.directory =
      (x.1, ⟨x.2.directory, x.2.marks.filter c.persists⟩) := stallCheck_again d₁
  have hfaults : (faults .stall x.1).filter c.persists = faults .stall x.1 :=
    List.filter_eq_self.2 fun r hr => by rw [mem_faults hr]; rfl
  rw [hb]
  simp only [cycle, Scene.next, hrepair, hstall, List.filter_append, hfaults]

theorem installed_repairTurn (database : Database) (d : Directory) :
    ((c.repairTurn home database d).marks.filterMap Request.installed?).Sublist [database] := by
  simp only [repairTurn]
  split
  · split
    · simp [Request.installed?]
    · split <;> simp [Request.installed?]
  · simp

theorem installed_repairRun :
    ∀ (l : List Database) (d : Directory),
      ((Scene.all (c.repairTurn home) l d).marks.filterMap Request.installed?).Sublist l
  | [], _ => .refl _
  | database :: rest, d => by
    simp only [Scene.all, Scene.next, List.filterMap_append]
    exact (installed_repairTurn database d).append (installed_repairRun rest _)

/-- **A hosted database is installed at most once in a cycle.** -/
theorem installed_cycle (d : Directory) :
    ((c.cycle policy home d).marks.filterMap Request.installed?).Sublist d.hosted := by
  have hrepair : ((c.repairCheck home d).marks.filterMap Request.installed?).Sublist d.hosted := by
    unfold repairCheck
    split
    · exact installed_repairRun d.hosted d
    · exact List.nil_sublist _
  have hstall : ∀ d, (c.stallCheck policy home d).2.marks.filterMap Request.installed? = [] := by
    intro d
    refine List.filterMap_eq_nil_iff.2 fun r hr => ?_
    obtain ⟨peer, database, rfl⟩ := mem_marks_stallCheck hr
    cases policy.canOffline <;> rfl
  have hfaults : ∀ reply, (faults .stall reply).filterMap Request.installed? = [] :=
    fun reply => List.filterMap_eq_nil_iff.2 fun r hr => by rw [mem_faults hr]; rfl
  simp only [cycle, Scene.next, List.filterMap_append, hstall, hfaults, List.append_nil]
  exact hrepair

end Cycles

end Climate

end Upkeep
