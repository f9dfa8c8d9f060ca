import Upkeep.Proofs.Directory.Deeds
import Upkeep.Proofs.Monitor.Seeding

/-!
# What a seeded directory holds

Nothing is asked here of the settings: a peer may be listed twice or under the name of the home
node, and a database may be listed twice.  The directory keeps every name once, and the count of its
writes alone tells how often a status was given.

* `Directory.answers_adding` : an open directory does whatever only adds to it.
* `Settings.deeds_seeding` : the deeds of the seeding, from which the members, the hosted databases
  and the count can be read off.
* `Settings.stocked` : **what the seeding leaves**, for any settings.
-/

namespace Upkeep

namespace Operation

/-- Whether an operation only adds to a directory. -/
def isAddition : Operation → Bool
  | enroll .. | host .. | setStatus .. => true
  | forget .. | close | writes | homeName | homeStatus | databases | status .. | onlineNodes ..
  | onlinePeers .. | snapshot => false

end Operation

namespace Directory

variable {d : Directory} {ops : List Operation}

/-- An open directory does what only adds to it, and stays open. -/
theorem perform_addition (hopen : d.closed = false) {op : Operation} (hop : op.isAddition = true) :
    (d.perform op).1 = .ok .done ∧ (d.perform op).2.closed = false := by
  cases op with
  | enroll node status => exact ⟨rfl, hopen⟩
  | host database =>
    obtain ⟨hosted, hhost, -⟩ := d.host_eq database
    refine ⟨rfl, ?_⟩
    show (d.host database).closed = false
    rw [hhost]
    exact hopen
  | setStatus key status =>
    have hset : d.setStatus key status = .ok (d.write key status) := whileOpen_of_open hopen _
    simp only [perform, hset]
    exact ⟨trivial, hopen⟩
  | _ => cases hop

/-- An open directory does whatever only adds to it. -/
theorem answers_adding (hopen : d.closed = false) (hops : ∀ op ∈ ops, op.isAddition = true) :
    (d.performAll ops).1 = ops.map fun _ => .ok .done := by
  induction ops generalizing d with
  | nil => rfl
  | cons op rest ih =>
    rw [List.forall_mem_cons] at hops
    obtain ⟨hanswer, hopen'⟩ := perform_addition hopen hops.1
    simp only [performAll, hanswer, ih hopen' hops.2, List.map_cons]

theorem deeds_adding (hopen : d.closed = false) (hops : ∀ op ∈ ops, op.isAddition = true) :
    d.deeds ops = ops.map fun op => ⟨op, .ok .done⟩ := by
  rw [deeds, answers_adding hopen hops, List.zipWith_map_right, List.zipWith_self]

end Directory

/-- If all pairs give the same value, every key has it. -/
theorem Table.find?_ofList_of_forall {κ ν : Type} [DecidableEq κ] {pairs : List (κ × ν)} {k : κ}
    {v : ν} (hpairs : ∀ pair ∈ pairs, pair.2 = v) (hk : k ∈ (ofList pairs).keys) :
    (ofList pairs).find? k = some v := by
  obtain ⟨w, hw⟩ := Option.ne_none_iff_exists'.1
    fun hnone => ((ofList pairs).find?_eq_none_iff k).1 hnone hk
  obtain ⟨before, after, hsplit, -⟩ := find?_ofList_eq_some.1 hw
  have hpair : (k, w) ∈ pairs := by
    rw [hsplit]
    exact List.mem_append_right _ (List.mem_cons_self ..)
  exact hw.trans (congrArg some (hpairs _ hpair))

namespace Settings

variable (s : Settings)

theorem seeding_adds : ∀ op ∈ s.seeding, op.isAddition = true := by
  intro op hop
  simp only [seeding, List.mem_append, List.mem_map, List.mem_flatMap, List.mem_cons,
    List.not_mem_nil, or_false] at hop
  obtain ⟨p, -, rfl⟩ | ⟨database, -, (rfl | rfl) | ⟨p, -, rfl⟩⟩ := hop <;> rfl

/-- The deeds of the seeding: nothing is refused. -/
theorem deeds_seeding : (Directory.create s.node.name .online).deeds s.seeding =
    s.seeding.map fun op => ⟨op, .ok .done⟩ :=
  Directory.deeds_adding rfl s.seeding_adds

/-! ### What the seeding does of each kind -/

theorem mentions_seeding :
    (s.seeding.map fun op => (⟨op, .ok .done⟩ : Deed)).filterMap Deed.mention? =
      s.cluster.peers.map fun p => (p.name, .online) := by
  simp [seeding, Function.comp_def, Deed.mention?, List.filterMap_flatMap]

theorem registrations_seeding :
    (s.seeding.map fun op => (⟨op, .ok .done⟩ : Deed)).filterMap Deed.registration? =
      s.cluster.databases := by
  have hnone : (s.cluster.peers.filterMap fun _ => (none : Option Database)) = [] :=
    List.filterMap_eq_nil_iff.2 fun _ _ => rfl
  simp [seeding, Function.comp_def, Deed.registration?, List.filterMap_flatMap, hnone]

/-- Each time that a database is listed, the home node and each peer listed get a status. -/
theorem writes_seeding :
    (s.seeding.map fun op => (⟨op, .ok .done⟩ : Deed)).countP Deed.isWrite =
      s.cluster.databases.length * (1 + s.cluster.peers.length) := by
  simp [seeding, Function.comp_def, Deed.isWrite, List.countP_flatMap, List.map_const',
    Nat.add_comm]

/-- What a seeded directory holds. -/
structure Stocked (d : Directory) : Prop where
  /-- The home node keeps it. -/
  home : d.home = s.node.name
  /-- It is open. -/
  opened : d.closed = false
  /-- The home node is followed by the other names among the peers, in order of first mention. -/
  members : d.members.keys = s.node.name ::
    ((s.cluster.peers.map PeerSettings.name).filter fun name => name ≠ s.node.name).eraseDups
  /-- They are all full members. -/
  standing : ∀ node ∈ d.members.keys, d.members.find? node = some .online
  /-- The databases are hosted, in order of first mention. -/
  hosted : d.hosted = s.cluster.databases.eraseDups
  /-- Each member has a copy of each database, and there are no other copies. -/
  copies : ∀ key, (d.entries.find? key).isSome ↔
    key.node ∈ d.members.keys ∧ key.database ∈ s.cluster.databases
  /-- The copies of the peers are online, -/
  peers : ∀ p ∈ s.cluster.peers, ∀ database ∈ s.cluster.databases,
    d.entries.find? ⟨p.name, database⟩ = some .online
  /-- and those of the home node are offline, unless it is one of the peers. -/
  own : ∀ database ∈ s.cluster.databases, d.entries.find? ⟨s.node.name, database⟩ =
    some (if s.node.name ∈ s.cluster.peers.map PeerSettings.name then .online else .offline)
  /-- Every status that was given is counted, also if the copy had one. -/
  writes : d.writes = s.cluster.databases.length * (1 + s.cluster.peers.length)

theorem isPeer_iff (node : Node) :
    s.isPeer node = true ↔ node ∈ s.cluster.peers.map PeerSettings.name := by
  simp [isPeer]

/-- The entry of a copy after the seeding. -/
theorem find?_directory (key : CopyKey) : s.directory.entries.find? key =
    if key.database ∈ s.cluster.databases then s.statuses .offline (fun _ => .online) key.node
    else none := by
  let d₀ := Directory.create s.node.name .online
  obtain ⟨⟨members, henrolled⟩, -⟩ := Directory.performAll_enroll s.cluster.peers d₀
  have hseeds := s.seeds_all s.cluster.databases (congrArg Directory.closed henrolled)
  rw [← Directory.performAll_append] at hseeds
  refine (hseeds.entries key).trans ?_
  rw [henrolled]
  show (if _ then Option.or _ none else none) = _
  rw [Option.or_none]

/-- What the directory keeps after the seeding. -/
theorem recorded_directory : Directory.Recorded s.node.name .online
    (s.seeding.map fun op => ⟨op, .ok .done⟩) s.directory := by
  rw [← deeds_seeding]
  exact Directory.recorded_performAll s.node.name .online s.seeding

theorem members_directory : s.directory.members =
    .ofList ((s.node.name, .online) :: s.cluster.peers.map fun p => (p.name, .online)) := by
  rw [← s.mentions_seeding]
  exact s.recorded_directory.members

theorem keys_directory : s.directory.members.keys = s.node.name ::
    ((s.cluster.peers.map PeerSettings.name).filter fun name => name ≠ s.node.name).eraseDups := by
  rw [members_directory, Table.keys_ofList, List.map_cons, List.map_map, List.eraseDups_cons]
  congr 2
  exact List.filter_congr fun name _ => by simp [beq_eq_decide]

theorem mem_keys_directory (node : Node) :
    node ∈ s.directory.members.keys ↔ node = s.node.name ∨ s.isPeer node = true := by
  rw [keys_directory, isPeer_iff, List.mem_cons, List.mem_eraseDups, List.mem_filter]
  by_cases h : node = s.node.name <;> simp [h]

/-- **What the seeding leaves.**  For any settings, each operation of the seeding is done, and the
directory with which a monitor starts is stocked with what the settings list. -/
theorem stocked :
    (∀ answer ∈ ((Directory.create s.node.name .online).performAll s.seeding).1,
      answer = .ok .done) ∧
    (Monitor.world s).directory = s.directory ∧ s.Stocked s.directory := by
  refine ⟨fun answer hanswer => ?_, (Monitor.world_eq s).1, s.recorded_directory.sameHome, ?_,
    s.keys_directory, fun node hnode => ?_, ?_, fun key => ?_, fun p hp database hdatabase => ?_,
    fun database hdatabase => ?_, ?_⟩
  · rw [Directory.answers_adding rfl s.seeding_adds, List.mem_map] at hanswer
    obtain ⟨op, -, rfl⟩ := hanswer
    rfl
  · -- nothing that only adds is the operation that shuts a directory
    refine eq_false_of_ne_true fun hclosed => ?_
    have hclose := s.recorded_directory.closed.1 hclosed
    rw [List.map_map, Function.comp_def, List.map_id'] at hclose
    exact nomatch s.seeding_adds _ hclose
  · rw [members_directory] at hnode ⊢
    refine Table.find?_ofList_of_forall (fun pair hpair => ?_) hnode
    obtain rfl | hpair := List.mem_cons.1 hpair
    · rfl
    · obtain ⟨p, -, rfl⟩ := List.mem_map.1 hpair
      rfl
  · rw [← s.registrations_seeding]
    exact s.recorded_directory.hosted
  · rw [find?_directory, mem_keys_directory, statuses]
    by_cases hdatabase : key.database ∈ s.cluster.databases <;>
      cases s.isPeer key.node <;> by_cases hhome : key.node = s.node.name <;>
      simp [hdatabase, hhome]
  · rw [find?_directory, if_pos hdatabase, statuses, if_pos]
    exact (s.isPeer_iff _).2 (List.mem_map_of_mem hp)
  · rw [find?_directory, if_pos hdatabase, statuses]
    simp only [isPeer_iff, if_true]
    split <;> rfl
  · rw [← s.writes_seeding]
    exact s.recorded_directory.writes

/-- A home node that is listed among its peers takes its own copy for online from the start. -/
example :
    let s : Settings :=
      { node := ⟨"n1"⟩, cluster := ⟨["Orders", "Orders"], [⟨"n2", true⟩, ⟨"n1", true⟩]⟩ }
    s.directory.members.keys = ["n1", "n2"] ∧
      s.directory.entries.find? ⟨"n1", "Orders"⟩ = some .online ∧ s.directory.writes = 6 := by
  decide

end Settings

end Upkeep
