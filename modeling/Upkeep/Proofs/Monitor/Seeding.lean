import Upkeep.Monitor
import Upkeep.Proofs.Steady.Turns

/-!
# The directory with which a monitor starts

Seeding enrolls the peers, registers the databases, and gives every copy a status: that of the home
node is offline, those of the peers are online.

* `Settings.statuses` : the statuses of the copies of a database, node by node.
* `Settings.Seeds` : what the seeding of databases makes of a directory.
* `Settings.seeded` : **the directory with which a monitor starts**, read off its settings.
-/

namespace Upkeep

namespace Directory

variable {d : Directory}

theorem perform_setStatus (hopen : d.closed = false) (key : CopyKey) (status : CopyStatus) :
    (d.perform (.setStatus key status)).2 = d.write key status := by
  have hset : d.setStatus key status = .ok (d.write key status) := whileOpen_of_open hopen _
  simp only [perform, hset]

/-- The copies of peers are set online. -/
theorem performAll_online (database : Database) (peers : List PeerSettings)
    (hopen : d.closed = false) :
    let d' := (d.performAll (peers.map fun p => .setStatus ⟨p.name, database⟩ .online)).2
    d.OnlyOf database d' ∧ ∀ node, d'.entries.find? ⟨node, database⟩ =
      if peers.any (fun p => p.name = node) then some .online
      else d.entries.find? ⟨node, database⟩ := by
  induction peers generalizing d with
  | nil => exact ⟨.refl database d, fun _ => rfl⟩
  | cons p rest ih =>
    have hwrite := d.onlyOf_write ⟨p.name, database⟩ .online
    obtain ⟨honly, hentries⟩ := ih (d := d.write ⟨p.name, database⟩ .online) hopen
    simp only [List.map_cons, performAll, perform_setStatus hopen]
    refine ⟨hwrite.trans honly, fun node => ?_⟩
    rw [hentries, find?_write]
    by_cases h : p.name = node <;> simp [h]

/-- Peers are enrolled: they follow those who are members already, in order. -/
theorem performAll_enroll (peers : List PeerSettings) (d : Directory) :
    let d' := (d.performAll (peers.map fun p => .enroll p.name .online)).2
    (∃ members, d' = { d with members := members }) ∧ d.members.keys <+: d'.members.keys ∧
      (∀ node, node ∈ d'.members.keys ↔
        node ∈ d.members.keys ∨ peers.any (fun p => p.name = node) = true) ∧
      ∀ node, d.members.find? node = some .online → d'.members.find? node = some .online := by
  induction peers generalizing d with
  | nil => exact ⟨⟨d.members, rfl⟩, List.prefix_rfl, fun node => by simp [performAll], fun _ h => h⟩
  | cons p rest ih =>
    obtain ⟨⟨members, hd'⟩, hprefix, hmem, honline⟩ := ih (d.enroll p.name .online)
    have hkeys : (d.enroll p.name .online).members.keys =
        if p.name ∈ d.members.keys then d.members.keys else d.members.keys ++ [p.name] :=
      Table.keys_put _ _ _
    refine ⟨⟨members, hd'⟩, List.IsPrefix.trans ?_ hprefix, fun node => ?_, fun node h => ?_⟩
    · rw [hkeys]
      split
      · exact List.prefix_rfl
      · exact List.prefix_append _ _
    · refine (hmem node).trans ?_
      rw [hkeys, List.any_cons, Bool.or_eq_true, decide_eq_true_eq]
      split
      · rename_i hknown
        constructor
        · exact Or.imp_right .inr
        · rintro (h | rfl | h)
          · exact .inl h
          · exact .inl hknown
          · exact .inr h
      · rw [List.mem_append, List.mem_singleton, or_assoc, eq_comm (a := node)]
    · refine honline node ?_
      simp only [enroll, Table.find?_put]
      split
      · rfl
      · exact h

/-- A database is registered, and nothing else changes. -/
theorem host_eq (d : Directory) (database : Database) :
    ∃ hosted, d.host database = { d with hosted := hosted } ∧
      ∀ other, other ∈ hosted ↔ other ∈ d.hosted ∨ other = database := by
  unfold host
  split
  · rename_i hknown
    refine ⟨d.hosted, rfl, fun other => ⟨.inl, ?_⟩⟩
    rintro (h | rfl)
    · exact h
    · exact hknown
  · exact ⟨d.hosted ++ [database], rfl, fun other => by simp⟩

end Directory

namespace Settings

variable {s : Settings} {d d' d'' : Directory}

/-- Whether a node is a peer. -/
def isPeer (s : Settings) (node : Node) : Bool := s.cluster.peers.any fun p => p.name = node

/-- Settings that are accepted give no peer the name of the home node. -/
theorem isPeer_of_check (hs : s.check = .ok ()) : s.isPeer s.node.name = false := by
  unfold check at hs
  split at hs
  · exact nomatch hs
  · split at hs
    · exact nomatch hs
    · split at hs
      · exact nomatch hs
      · split at hs
        · exact nomatch hs
        · exact eq_false_of_ne_true ‹_›

/-- The statuses of the copies of a database: that of the home node, and those of the peers. -/
def statuses (s : Settings) (own : CopyStatus) (others : Node → CopyStatus) (node : Node) :
    Option CopyStatus :=
  if s.isPeer node then some (others node) else if node = s.node.name then some own else none

/-- What the seeding of databases makes of a directory. -/
structure Seeds (s : Settings) (databases : List Database) (d d' : Directory) : Prop where
  /-- The same node keeps it. -/
  home : d'.home = d.home
  /-- The members are the same. -/
  members : d'.members = d.members
  /-- It is no more closed than it was. -/
  closed : d'.closed = d.closed
  /-- The databases are hosted as well. -/
  hosted : ∀ database, database ∈ d'.hosted ↔ database ∈ d.hosted ∨ database ∈ databases
  /-- Their copies have a status; the others are as they were. -/
  entries : ∀ key, d'.entries.find? key =
    if key.database ∈ databases then
      (s.statuses .offline (fun _ => .online) key.node).or (d.entries.find? key)
    else d.entries.find? key

/-- What is done to seed a database. -/
def seedingOf (s : Settings) (database : Database) : List Operation :=
  [.host database, .setStatus ⟨s.node.name, database⟩ .offline] ++
    s.cluster.peers.map fun p => .setStatus ⟨p.name, database⟩ .online

/-- One database is seeded. -/
theorem seeds_one (s : Settings) (database : Database) (hopen : d.closed = false) :
    s.Seeds [database] d (d.performAll (s.seedingOf database)).2 := by
  obtain ⟨hosted, hhost, hmem⟩ := d.host_eq database
  have hopen' : (d.host database).closed = false := by
    rw [hhost]
    exact hopen
  have hhome : (d.performAll [.host database, .setStatus ⟨s.node.name, database⟩ .offline]).2 =
      (d.host database).write ⟨s.node.name, database⟩ .offline :=
    Directory.perform_setStatus hopen' _ _
  obtain ⟨honly, hentries⟩ := Directory.performAll_online database s.cluster.peers
    (d := (d.host database).write ⟨s.node.name, database⟩ .offline) hopen'
  rw [seedingOf, Directory.performAll_append, hhome]
  rw [hhost] at honly hentries ⊢
  refine ⟨honly.home, honly.members, honly.closed, fun other => ?_, fun key => ?_⟩
  · rw [honly.hosted, List.mem_singleton]
    exact hmem other
  · obtain ⟨node, database'⟩ := key
    by_cases hdatabase : database' = database
    · subst hdatabase
      rw [hentries, if_pos (List.mem_singleton_self _), Directory.find?_write]
      show (if s.isPeer node = true then _ else _) = _
      cases hpeer : s.isPeer node with
      | true => simp [statuses, hpeer]
      | false =>
        by_cases hnode : node = s.node.name
        · simp [statuses, ← hnode, hpeer]
        · simp [statuses, hpeer, hnode, Ne.symm hnode]
    · rw [honly.entries _ hdatabase, if_neg (by simpa using hdatabase), Directory.find?_write]
      simp [Ne.symm hdatabase]

/-- One database after another is seeded. -/
theorem seeds_all (s : Settings) (databases : List Database) (hopen : d.closed = false) :
    s.Seeds databases d (d.performAll (databases.flatMap s.seedingOf)).2 := by
  induction databases generalizing d with
  | nil => exact ⟨rfl, rfl, rfl, fun _ => by simp [Directory.performAll], fun _ => rfl⟩
  | cons database rest ih =>
    have hone := s.seeds_one database hopen
    have hrest := ih (d := (d.performAll (s.seedingOf database)).2) (hone.closed.trans hopen)
    rw [List.flatMap_cons, Directory.performAll_append]
    refine ⟨hrest.home.trans hone.home, hrest.members.trans hone.members,
      hrest.closed.trans hone.closed, fun other => ?_, fun key => ?_⟩
    · rw [hrest.hosted, hone.hosted, List.mem_singleton, List.mem_cons, or_assoc]
    · rw [hrest.entries, hone.entries]
      obtain ⟨node, database'⟩ := key
      by_cases hthis : database' = database
      · -- a database that is seeded twice is seeded as if once
        subst hthis
        by_cases hlater : database' ∈ rest
        · simp [hlater, ← Option.or_assoc]
        · simp [hlater]
      · simp [hthis]

/-- What the directory is like with which a monitor starts. -/
structure Seeded (s : Settings) (d : Directory) : Prop where
  /-- The home node keeps it, -/
  home : d.home = s.node.name
  /-- and is a full member. -/
  standing : d.members.find? s.node.name = some .online
  /-- It is open. -/
  opened : d.closed = false
  /-- The other members are the peers, -/
  members : ∀ node, node ∈ d.members.keys ↔ node = s.node.name ∨ s.isPeer node = true
  /-- and the first of them joined first. -/
  order : s.node.name :: (s.cluster.peers.head?.map PeerSettings.name).toList <+: d.members.keys
  /-- The databases are hosted, -/
  hosted : ∀ database, database ∈ d.hosted ↔ database ∈ s.cluster.databases
  /-- each of them once. -/
  nodup : d.hosted.Nodup
  /-- The copies of the home node are offline, those of the peers are online. -/
  entries : ∀ key, d.entries.find? key =
    if key.database ∈ s.cluster.databases then s.statuses .offline (fun _ => .online) key.node
    else none

/-- The first peer joins first. -/
theorem order_enrolled (hpeers : s.isPeer s.node.name = false) :
    s.node.name :: (s.cluster.peers.head?.map PeerSettings.name).toList <+:
      ((Directory.create s.node.name .online).performAll
        (s.cluster.peers.map fun p => .enroll p.name .online)).2.members.keys := by
  unfold isPeer at hpeers
  cases hlist : s.cluster.peers with
  | nil => exact List.prefix_rfl
  | cons first rest =>
    rw [hlist, List.any_cons, Bool.or_eq_false_iff, decide_eq_false_iff_not] at hpeers
    obtain ⟨-, hprefix, -, -⟩ := Directory.performAll_enroll rest
      ((Directory.create s.node.name .online).enroll first.name .online)
    have hkeys : ((Directory.create s.node.name .online).enroll first.name .online).members.keys =
        [s.node.name, first.name] := by
      have hput := (Directory.create s.node.name .online).members.keys_put first.name .online
      rwa [if_neg (by simpa [Directory.create, Table.keys_put, Table.keys, Table.empty, Table.put,
        Table.putRow] using hpeers.1)] at hput
    rw [hkeys] at hprefix
    exact hprefix

/-- **The directory with which a monitor starts.**  No peer has the name of the home node. -/
theorem seeded (s : Settings) (hpeers : s.isPeer s.node.name = false) : s.Seeded s.directory := by
  let d₀ := Directory.create s.node.name .online
  let d₁ := (d₀.performAll (s.cluster.peers.map fun p => .enroll p.name .online)).2
  obtain ⟨⟨members, henrolled⟩, -, hmem, honline⟩ :=
    Directory.performAll_enroll s.cluster.peers d₀
  have hopen : d₁.closed = false := congrArg Directory.closed henrolled
  have hseeds := s.seeds_all s.cluster.databases hopen
  have hdirectory : (d₁.performAll (s.cluster.databases.flatMap s.seedingOf)).2 = s.directory :=
    (Directory.performAll_append d₀ _ _).symm
  rw [hdirectory] at hseeds
  have hreach : s.directory.Reachable s.node.name := ⟨.online, s.seeding, rfl⟩
  have hstanding : d₀.members.find? s.node.name = some .online := by
    simp [d₀, Directory.create]
  refine ⟨hreach.home_eq, ?_, hseeds.closed.trans hopen, fun node => ?_, ?_, fun database => ?_,
    hreach.nodup_hosted, fun key => ?_⟩
  · rw [hseeds.members]
    exact honline _ hstanding
  · rw [hseeds.members]
    refine (hmem node).trans (or_congr_left ?_)
    show node ∈ [s.node.name] ↔ _
    exact List.mem_singleton
  · rw [hseeds.members]
    exact order_enrolled hpeers
  · have hnone : d₁.hosted = [] := congrArg Directory.hosted henrolled
    simp [hseeds.hosted, hnone]
  · have hnone : d₁.entries = .empty := congrArg Directory.entries henrolled
    simp [hseeds.entries, hnone]

end Settings

namespace Monitor

/-- The world with which a monitor starts. -/
theorem world_eq (s : Settings) : (world s).directory = s.directory ∧
    (world s).own.loopback = s.loopback ∧ (world s).journal.tally = .empty := by
  let w : MonitorWorld :=
    { directory := Directory.create s.node.name .online, own := { loopback := s.loopback } }
  obtain ⟨hdirectory, hown, htally⟩ := World.performAll_eq s.seeding w
  exact ⟨hdirectory, congrArg Peers.loopback hown, htally⟩

end Monitor

end Upkeep
