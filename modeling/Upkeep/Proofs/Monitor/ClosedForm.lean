import Upkeep.Proofs.Monitor.Seeding
import Upkeep.Proofs.Monitor.Surroundings
import Upkeep.Proofs.Steady.Convergence

/-!
# What becomes of a cluster of one process

* `Settings.ownStatus`, `Settings.peerStatus` : the statuses that the copies of the home node and
  those of its peers come to have.
* `Settings.shows_cycle` : one cycle gives them these statuses.
* `Monitor.closed_form` : **the statuses after any number of cycles**, read off the settings.  Every
  one of these cycles runs to its end, and no check fails.
-/

namespace Upkeep

namespace Settings

variable {s : Settings} {d d' : Directory} {database database' : Database}

/-- Whether the home node brings up its copies: it has no peers, or the first one is within reach. -/
def bringsUp (s : Settings) : Bool := s.cluster.peers.head?.all fun first => s.reaches first.name

/-- The status that the copies of the home node come to have. -/
def ownStatus (s : Settings) : CopyStatus := if s.bringsUp then .online else .offline

/-- The status that the copies of a peer come to have. -/
def peerStatus (s : Settings) (node : Node) : CopyStatus :=
  if s.health.canOfflineServer && !s.reaches node && s.bringsUp then .offline else .online

/-- The copies of a database have given statuses, in a directory that is otherwise the one with which
the monitor started. -/
structure Shows (s : Settings) (database : Database) (statuses : Node → Option CopyStatus)
    (d : Directory) : Prop where
  /-- The frame is that of the start. -/
  frame : s.directory.SameFrame d
  /-- The copies have these statuses. -/
  entries : ∀ node, d.entries.find? ⟨node, database⟩ = statuses node

theorem Shows.of_onlyOf {statuses : Node → Option CopyStatus} (h : s.Shows database statuses d)
    (honly : d.OnlyOf database' d') (hne : database ≠ database') : s.Shows database statuses d' :=
  ⟨h.frame.trans honly.toSameFrame, fun node => (honly.entries _ hne).trans (h.entries node)⟩

/-- The other members, in the order in which they joined. -/
def others (s : Settings) : List Node := Directory.withoutHome s.node.name s.directory.members.keys

theorem mem_others (hseeded : s.Seeded s.directory) (hpeers : s.isPeer s.node.name = false)
    {node : Node} : node ∈ s.others ↔ s.isPeer node = true := by
  rw [others, Directory.mem_withoutHome, hseeded.members]
  constructor
  · rintro ⟨rfl | hpeer, hne⟩
    · exact absurd rfl hne
    · exact hpeer
  · intro hpeer
    refine ⟨.inr hpeer, ?_⟩
    rintro rfl
    exact absurd (hpeers.symm.trans hpeer) Bool.false_ne_true

/-- The first of them is the first peer of the settings. -/
theorem head?_others (hseeded : s.Seeded s.directory) (hpeers : s.isPeer s.node.name = false) :
    s.others.head? = s.cluster.peers.head?.map PeerSettings.name := by
  obtain ⟨later, hkeys⟩ := hseeded.order
  cases hlist : s.cluster.peers with
  | nil =>
    have hnone : s.others = [] := by
      refine List.eq_nil_iff_forall_not_mem.2 fun node hmem => ?_
      have hpeer := (mem_others hseeded hpeers).1 hmem
      simp [isPeer, hlist] at hpeer
    rw [hnone]
    rfl
  | cons first rest =>
    have hne : first.name ≠ s.node.name := by
      simp only [isPeer, hlist, List.any_cons, Bool.or_eq_false_iff,
        decide_eq_false_iff_not] at hpeers
      exact hpeers.1
    simp [others, Directory.withoutHome, ← hkeys, hlist, hne]

theorem bringsUp_eq (hseeded : s.Seeded s.directory) (hpeers : s.isPeer s.node.name = false) :
    s.bringsUp = s.others.head?.all s.reaches := by
  rw [head?_others hseeded hpeers, bringsUp]
  cases s.cluster.peers.head? <;> rfl

/-- The peers serve a database of which all have an online copy. -/
theorem Shows.peersOf_eq (hseeded : s.Seeded s.directory) {own : CopyStatus}
    (h : s.Shows database (s.statuses own fun _ => .online) d) :
    Stall.peersOf s.node.name d database = s.others := by
  simp only [Stall.peersOf, Directory.serving, h.frame.members, h.entries, others,
    Directory.withoutHome, List.filter_filter]
  refine List.filter_congr fun node hmem => ?_
  by_cases hhome : node = s.node.name
  · simp [hhome]
  · have hpeer := ((hseeded.members node).1 hmem).resolve_left hhome
    simp [hhome, statuses, hpeer]

/-- **The repair check brings up the copy of a hosted database** if it can. -/
theorem Shows.repairTurn (hseeded : s.Seeded s.directory) (hpeers : s.isPeer s.node.name = false)
    (h : s.Shows database (s.statuses .offline fun _ => .online) d) :
    s.Shows database (s.statuses s.ownStatus fun _ => .online)
      (s.climate.repairTurn s.node.name database d).directory := by
  refine ⟨h.frame.trans (Climate.onlyOf_repairTurn database d).toSameFrame, fun node => ?_⟩
  have hoffline : d.entries.find? ⟨s.node.name, database⟩ = some .offline := by
    rw [h.entries]
    simp [statuses, hpeers]
  have hwritten : (d.write ⟨s.node.name, database⟩ .online).entries.find? ⟨node, database⟩ =
      s.statuses .online (fun _ => .online) node := by
    rw [Directory.find?_write, h.entries]
    by_cases hhome : node = s.node.name
    · simp [hhome, statuses, hpeers]
    · simp [statuses, hhome, Ne.symm hhome]
  have hup := bringsUp_eq hseeded hpeers
  simp only [Climate.repairTurn, if_pos hoffline, h.peersOf_eq hseeded, ownStatus, hup]
  cases s.others with
  | nil => exact hwritten
  | cons first rest =>
    have hfails : s.climate.fails ⟨database, first, first :: rest⟩ = !s.reaches first := by
      simp only [Climate.fails, climate]
      cases s.reaches first <;> rfl
    simp only [hfails, List.head?_cons, Option.all_some]
    by_cases hfirst : s.reaches first = true
    · simpa [hfirst] using hwritten
    · simpa [hfirst] using h.entries node

/-- In the climate of a monitor no round fails. -/
def quietOf (s : Settings) (database : Database) (d : Directory) : List Node :=
  let peers := Stall.peersOf s.node.name d database
  if Stall.holdsRound s.node.name d database && peers.any s.reaches then
    peers.filter fun peer => !s.reaches peer
  else []

theorem silentOf_eq (s : Settings) (database : Database) (d : Directory) :
    s.climate.silentOf s.node.name database d = .ok (s.quietOf database d) := by
  simp only [Climate.silentOf, climate, quietOf, Bool.and_eq_true]
  split <;> simp [*]

/-- **The stall check sets the copies of silent peers offline** if the copy of the home node is up
and the settings allow it. -/
theorem Shows.stallTurn (hseeded : s.Seeded s.directory) (hpeers : s.isPeer s.node.name = false)
    (h : s.Shows database (s.statuses s.ownStatus fun _ => .online) d) :
    s.Shows database (s.statuses s.ownStatus s.peerStatus) (Scene.all
      (Climate.judge s.health.policy s.node.name database) (s.quietOf database d) d).directory := by
  refine ⟨h.frame.trans (Climate.onlyOf_judgeAll _ _ database _ d).toSameFrame, fun node => ?_⟩
  rw [Climate.find?_judgeAll, h.entries]
  -- a peer is silent if it is out of reach, and heard of only if the first peer is within reach
  have hquiet : node ∈ s.quietOf database d ↔
      s.bringsUp = true ∧ s.isPeer node = true ∧ s.reaches node = false := by
    have hlocal : d.entries.find? ⟨s.node.name, database⟩ = some s.ownStatus := by
      rw [h.entries]
      simp [statuses, hpeers]
    simp only [quietOf, Stall.holdsRound, h.peersOf_eq hseeded, hlocal, ownStatus]
    rw [← mem_others hseeded hpeers, bringsUp_eq hseeded hpeers]
    cases s.others with
    | nil => simp
    | cons first rest =>
      by_cases hfirst : s.reaches first = true
      · simp only [hfirst, List.head?_cons, Option.all_some, List.any_cons, Bool.true_or, if_true,
          true_and]
        simp
      · simp [hfirst]
  simp only [hquiet, statuses, peerStatus, HealthSettings.policy]
  cases s.isPeer node with
  | false => simp
  | true =>
    cases s.health.canOfflineServer <;> cases s.reaches node <;> cases s.bringsUp <;> simp

section Cycles

variable (hseeded : s.Seeded s.directory)

include hseeded

theorem isOnline_of_sameFrame (h : s.directory.SameFrame d) :
    ((d.members.find? d.home).getD .offline).isOnline = true := by
  rw [h.members, h.home, hseeded.home, hseeded.standing]
  rfl

theorem repairCheck_eq : s.climate.repairCheck s.node.name s.directory =
    Scene.all (s.climate.repairTurn s.node.name) s.directory.hosted s.directory :=
  if_pos (isOnline_of_sameFrame hseeded (.refl _))

theorem stallCheck_eq (h : s.directory.SameFrame d) :
    s.climate.stallCheck s.health.policy s.node.name d =
      (.ok (), Scene.all (fun database d => Scene.all
        (Climate.judge s.health.policy s.node.name database) (s.quietOf database d) d)
          s.directory.hosted d) := by
  rw [← h.hosted, ← Climate.stallRun_eq_all s.silentOf_eq]
  exact if_pos (isOnline_of_sameFrame hseeded h)

/-- **The statuses that the copies of a database of the settings come to have.** -/
theorem shows_cycle (hpeers : s.isPeer s.node.name = false)
    (hdatabase : database ∈ s.cluster.databases) :
    s.Shows database (s.statuses s.ownStatus s.peerStatus)
      (s.climate.cycle s.health.policy s.node.name s.directory).directory := by
  have hhosted := (hseeded.hosted database).2 hdatabase
  have hstart : s.Shows database (s.statuses .offline fun _ => .online) s.directory :=
    ⟨.refl _, fun node => by rw [hseeded.entries, if_pos hdatabase]⟩
  have hrepaired : s.Shows database (s.statuses s.ownStatus fun _ => .online)
      (s.climate.repairCheck s.node.name s.directory).directory := by
    rw [repairCheck_eq hseeded]
    exact Scene.all_establish (fun d h => h.repairTurn hseeded hpeers)
      (fun other hne d h => h.of_onlyOf (Climate.onlyOf_repairTurn other d) hne.symm)
      (fun other hne d h => h.of_onlyOf (Climate.onlyOf_repairTurn other d) hne.symm)
      hseeded.nodup hhosted hstart
  show s.Shows database _ (s.climate.stallCheck s.health.policy s.node.name _).2.directory
  rw [stallCheck_eq hseeded hrepaired.frame]
  exact Scene.all_establish (fun d h => h.stallTurn hseeded hpeers)
    (fun other hne d h => h.of_onlyOf (Climate.onlyOf_judgeAll _ _ other _ d) hne.symm)
    (fun other hne d h => h.of_onlyOf (Climate.onlyOf_judgeAll _ _ other _ d) hne.symm)
    hseeded.nodup hhosted hrepaired

/-- A database that is not in the settings has no copies. -/
theorem shows_none_cycle (hdatabase : database ∉ s.cluster.databases) :
    s.Shows database (fun _ => none)
      (s.climate.cycle s.health.policy s.node.name s.directory).directory := by
  have hne : ∀ other ∈ s.directory.hosted, database ≠ other := by
    rintro other hother rfl
    exact hdatabase ((hseeded.hosted database).1 hother)
  have hstart : s.Shows database (fun _ => none) s.directory :=
    ⟨.refl _, fun node => by rw [hseeded.entries, if_neg hdatabase]⟩
  have hrepaired : s.Shows database (fun _ => none)
      (s.climate.repairCheck s.node.name s.directory).directory := by
    rw [repairCheck_eq hseeded]
    exact Scene.all_keep (fun other hother d h =>
      h.of_onlyOf (Climate.onlyOf_repairTurn other d) (hne other hother)) hstart
  show s.Shows database _ (s.climate.stallCheck s.health.policy s.node.name _).2.directory
  rw [stallCheck_eq hseeded hrepaired.frame]
  exact Scene.all_keep (fun other hother d h =>
    h.of_onlyOf (Climate.onlyOf_judgeAll _ _ other _ d) (hne other hother)) hrepaired

/-- No check fails in a cycle. -/
theorem stallCheck_ok (h : s.directory.SameFrame d) :
    (s.climate.stallCheck s.health.policy s.node.name
      (s.climate.repairCheck s.node.name d).directory).1 = .ok () := by
  rw [stallCheck_eq hseeded (h.trans (Climate.sameFrame_repairCheck d))]

theorem outcome_completed (h : s.directory.SameFrame d) :
    s.climate.outcome s.health.policy s.node.name d = .completed := by
  rw [Climate.outcome, stallCheck_ok hseeded h]
  rfl

end Cycles

end Settings

namespace Monitor

/-- A monitor after a number of cycles. -/
def cycles (s : Settings) : Nat → Shared MonitorWorld
  | 0 => { world := world s }
  | n + 1 => (cycle s (cycles s n)).2

theorem cycles_eq (s : Settings) (n : Nat) :
    cycles s n = Pool.callInTurn (surroundings s) s.health.policy n ⟨false, world s⟩ := by
  induction n with
  | zero => rfl
  | succ n ih => rw [cycles, ih]; rfl

variable {s : Settings}

/-- **One cycle of a monitor**, whatever the statuses of the copies: it runs to its end, and no check
fails. -/
theorem cycle_completed (hseeded : s.Seeded s.directory) {w : MonitorWorld}
    (hw : w.own.loopback = s.loopback) (hframe : s.directory.SameFrame w.directory) :
    (cycle s ⟨false, w⟩).1.1 = [.completed] ∧ ∀ label,
      (cycle s ⟨false, w⟩).2.world.journal.tally.count (.checkErrors label) =
        w.journal.tally.count (.checkErrors label) := by
  obtain ⟨houtcome, -, hmarks, -⟩ := Cycle.steady_cycle (steady s) s.health.policy hw
    (hframe.closed.trans hseeded.opened)
  have hok := Settings.stallCheck_ok hseeded hframe
  unfold cycle
  rw [Pool.callTogether_one]
  refine ⟨?_, fun label => ?_⟩
  · exact congrArg (fun x => [x]) (houtcome.trans (Settings.outcome_completed hseeded hframe))
  · rw [count_outcome _ _ hw]
    have hnone : .note (.count (.checkErrors label)) ∉
        ((Cycle.body s.node.name s.health.policy).trace (surroundings s) w).map
          Exchange.request := by
      intro hmem
      refine Climate.not_mem_marks_cycle hok label ?_
      exact hmarks ▸ List.mem_filter.2 ⟨hmem, rfl⟩
    exact congrArg (_ + ·) (List.count_eq_zero.2 hnone)

/-- No cycle of a monitor finds another one running. -/
theorem flag_cycles (s : Settings) (n : Nat) : cycles s n = ⟨false, (cycles s n).world⟩ := by
  rw [cycles_eq]
  exact Pool.callInTurn_eq _ _ n _

/-- From the first cycle on the directory is as that one leaves it. -/
theorem directory_cycles (hseeded : s.Seeded s.directory) (n : Nat) :
    let w := (cycles s (n + 1)).world
    w.own.loopback = s.loopback ∧ w.directory =
      (s.climate.cycle s.health.policy s.node.name s.directory).directory := by
  obtain ⟨hdirectory, hloopback, -⟩ := world_eq s
  have hopen : (world s).directory.closed = false := by
    rw [hdirectory]
    exact hseeded.opened
  rw [cycles_eq, ← hdirectory]
  exact Cycle.steady_cycles (steady s) s.health.policy hloopback hopen n

/-- The cycles of a monitor change nothing but the statuses. -/
theorem sameFrame_cycles (hseeded : s.Seeded s.directory) (n : Nat) :
    (cycles s n).world.own.loopback = s.loopback ∧
      s.directory.SameFrame (cycles s n).world.directory := by
  cases n with
  | zero =>
    obtain ⟨hdirectory, hloopback, -⟩ := world_eq s
    refine ⟨hloopback, ?_⟩
    show s.directory.SameFrame (world s).directory
    rw [hdirectory]
    exact .refl _
  | succ n =>
    obtain ⟨hloopback, hdirectory⟩ := directory_cycles hseeded n
    refine ⟨hloopback, ?_⟩
    rw [hdirectory]
    exact Climate.sameFrame_cycle _

/-- No check fails in any of them. -/
theorem checkErrors_cycles (hseeded : s.Seeded s.directory) (n : Nat) (label : String) :
    (cycles s n).world.journal.tally.count (.checkErrors label) = 0 := by
  induction n with
  | zero =>
    show (world s).journal.tally.count _ = 0
    rw [(world_eq s).2.2]
    rfl
  | succ n ih =>
    obtain ⟨hloopback, hframe⟩ := sameFrame_cycles hseeded n
    rw [cycles, flag_cycles, (cycle_completed hseeded hloopback hframe).2, ih]

/-- **The closed form of a monitor** whose settings are accepted. -/
theorem closed_form (s : Settings) (hs : s.check = .ok ()) (n : Nat) :
    let d := (cycles s (n + 1)).world.directory
    -- every cycle runs to its end, and no check fails
    (cycle s (cycles s n)).1.1 = [.completed] ∧
      (∀ label, (cycles s (n + 1)).world.journal.tally.count (.checkErrors label) = 0) ∧
      -- the copies of the home node are online if there are no peers or the first one is within
      -- reach; those of a peer are offline if it is out of reach while the first one is not, provided
      -- that copies may be set offline
      (∀ database ∈ s.cluster.databases,
        d.entries.find? ⟨s.node.name, database⟩ = some s.ownStatus ∧
          ∀ p ∈ s.cluster.peers, d.entries.find? ⟨p.name, database⟩ = some (s.peerStatus p.name)) ∧
      -- nothing else has a status
      ∀ key status, d.entries.find? key = some status → key.database ∈ s.cluster.databases ∧
        (key.node = s.node.name ∨ ∃ p ∈ s.cluster.peers, p.name = key.node) := by
  intro d
  have hpeers := Settings.isPeer_of_check hs
  have hseeded := s.seeded hpeers
  have hd : d = (s.climate.cycle s.health.policy s.node.name s.directory).directory :=
    (directory_cycles hseeded n).2
  have hcompleted : (cycle s (cycles s n)).1.1 = [.completed] := by
    obtain ⟨hloopback, hframe⟩ := sameFrame_cycles hseeded n
    rw [flag_cycles]
    exact (cycle_completed hseeded hloopback hframe).1
  refine ⟨hcompleted, fun label => checkErrors_cycles hseeded (n + 1) label,
    fun database hdatabase => ?_, fun key status hkey => ?_⟩
  · have hshows := Settings.shows_cycle hseeded hpeers hdatabase
    rw [← hd] at hshows
    refine ⟨?_, fun p hp => ?_⟩
    · simp [hshows.entries, Settings.statuses, hpeers]
    · have hpeer : s.isPeer p.name = true := List.any_eq_true.2 ⟨p, hp, decide_eq_true rfl⟩
      simp [hshows.entries, Settings.statuses, hpeer]
  · obtain ⟨node, database⟩ := key
    by_cases hdatabase : database ∈ s.cluster.databases
    · have hshows := Settings.shows_cycle hseeded hpeers hdatabase
      rw [← hd] at hshows
      rw [hshows.entries, Settings.statuses] at hkey
      refine ⟨hdatabase, ?_⟩
      split at hkey
      · rename_i hpeer
        obtain ⟨p, hp, hname⟩ := List.any_eq_true.1 hpeer
        exact .inr ⟨p, hp, of_decide_eq_true hname⟩
      · split at hkey
        · exact .inl ‹_›
        · cases hkey
    · have hshows := Settings.shows_none_cycle hseeded hdatabase
      rw [← hd] at hshows
      rw [hshows.entries] at hkey
      cases hkey

/-- The first peer is set twice, first out of reach and then within it; another one is out of
reach. -/
def settledTwice : Settings where
  health := { canOfflineServer := true }
  cluster := {
    databases := ["Orders", "Orders"]
    peers := [⟨"node-2", false⟩, ⟨"node-3", false⟩, ⟨"node-2", true⟩] }

/-- The last setting counts, so the home node installs its copy from the first peer and sets that of
the other one offline. -/
theorem closed_form_settledTwice :
    settledTwice.check = .ok () ∧
      let d := (cycles settledTwice 7).world.directory
      d.entries.find? ⟨"node-1", "Orders"⟩ = some .online ∧
        d.entries.find? ⟨"node-2", "Orders"⟩ = some .online ∧
        d.entries.find? ⟨"node-3", "Orders"⟩ = some .offline := by
  obtain ⟨-, -, hentries, -⟩ := closed_form settledTwice rfl 6
  obtain ⟨hown, hothers⟩ := hentries "Orders" (by decide)
  exact ⟨rfl, hown.trans (by decide), (hothers ⟨"node-2", false⟩ (by decide)).trans (by decide),
    (hothers ⟨"node-3", false⟩ (by decide)).trans (by decide)⟩

end Monitor

end Upkeep
