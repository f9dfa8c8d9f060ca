import Upkeep.Proofs.Cycle.Steps

/-!
# Write discipline

Whatever the installer and the transport do to the directory while they are at work, the loop writes
a status on two occasions only.

* `Cycle.write_discipline` : **every write of a cycle** sets the local copy of a hosted database
  online that was said to be offline at its turn of that same repair check, or, only if the settings
  allow it, sets the copy of a peer offline that is online at that moment, of a hosted database
  whose local copy was said to be online at its turn of that same stall check.  A cycle in which
  the home node is no full member writes nothing and calls neither the installer nor the transport.
  If nobody else changes the directory, no entry is made or dropped, and none of a copy that is being
  installed or backed up is touched.
-/

namespace Upkeep

variable {σ : Type} {e : Surroundings σ} {dir : σ → Directory}

namespace Surroundings

/-- Each request is answered as the directory answers it. -/
theorem Reflects.exchange (he : e.Reflects dir Directory.Evolves) (r : Request) (s : σ) :
    (dir s).Responds Directory.Evolves r (e.exchange r s).answer (dir (e.exchange r s).after) := by
  have hevolves : ∀ {α : Type} {p : Process σ α},
      p.Makes (fun s s' => Directory.Evolves (dir s) (dir s')) s →
      Directory.Evolves (dir s) (dir (p.finish 0 s).2) := by
    intro α p hp
    obtain ⟨hsteps, -⟩ := hp.finish (fun _ => trivial) 0
    generalize (p.finish 0 s).2 = s' at hsteps
    induction hsteps with
    | refl => exact .refl _
    | tail _ hstep ih => exact ih.trans hstep
  cases r with
  | homeStatus => exact he.homeStatus s
  | databases => exact he.databases s
  | status key => exact he.status key s
  | setStatus key status => exact he.setStatus key status s
  | onlineNodes database => exact he.onlineNodes database s
  | install source => exact hevolves (he.installer source s)
  | heartbeat database peers timeoutMs => exact hevolves (he.transport database peers timeoutMs s)
  | note n => exact he.note n s

theorem Reflects.keeps_keeper (he : e.Reflects dir Directory.Evolves) (s : σ) (r : Request)
    (hs : e.KeepsDirectory dir s) : e.KeepsDirectory dir (e.exchange r s).after :=
  (Directory.Responds.to_extends (fun _ _ h => h) (he.exchange r s)).home.trans hs

end Surroundings

namespace Directory

variable {home : Node} {canOffline : Bool} {d d' : Directory}

/-- No entry is made or dropped, over any number of steps of the loop. -/
theorem keys_of_loopSteps (hsteps : Relation.ReflTransGen (LoopStep home canOffline) d d') :
    d'.entries.keys = d.entries.keys := by
  induction hsteps with
  | refl => rfl
  | tail _ hstep ih => exact hstep.keys_eq.trans ih

theorem find?_of_loopSteps (hsteps : Relation.ReflTransGen (LoopStep home canOffline) d d')
    (key : CopyKey) {status : CopyStatus} (honline : status ≠ .online)
    (hoffline : status ≠ .offline) :
    d'.entries.find? key = some status ↔ d.entries.find? key = some status := by
  induction hsteps with
  | refl => rfl
  | tail _ hstep ih => exact (hstep.find?_eq key honline hoffline).trans ih

end Directory

namespace Cycle

/-- The checks of a cycle, by name. -/
def checkOf (home : Node) (policy : DemotionPolicy) : CheckName → Program Unit
  | .repair => (Repair.check home).run >>= fun _ => pure ()
  | .audit => (Audit.check home).run >>= fun _ => pure ()
  | .stall => (Stall.check home policy).run >>= fun _ => pure ()

/-- Where an exchange belongs that comes after others: it is a note, or one of a check, and then it
comes after the exchanges `told` of that check. -/
def Belongs (e : Surroundings σ) (dir : σ → Directory) (policy : DemotionPolicy)
    (before : List (Exchange σ)) (x : Exchange σ) : Prop :=
  (∃ n, x.request = .note n) ∨ ∃ name s earlier told later, e.KeepsDirectory dir s ∧
    before = earlier ++ told ∧ (checkOf e.home policy name).trace e s = told ++ x :: later

theorem Belongs.prepend {policy : DemotionPolicy} {before : List (Exchange σ)} {x : Exchange σ}
    (h : Belongs e dir policy before x) (more : List (Exchange σ)) :
    Belongs e dir policy (more ++ before) x := by
  obtain hnote | ⟨name, s, earlier, told, later, hs, rfl, htrace⟩ := h
  · exact .inl hnote
  · exact .inr ⟨name, s, more ++ earlier, told, later, hs, (List.append_assoc _ _ _).symm, htrace⟩

/-- Every exchange of a program belongs to a check or is a note, and the home node still keeps the
directory in the end. -/
def Splits (e : Surroundings σ) (dir : σ → Directory) (policy : DemotionPolicy) {α : Type}
    (p : Program α) : Prop :=
  ∀ s, e.KeepsDirectory dir s →
    (∀ before x after, p.trace e s = before ++ x :: after → Belongs e dir policy before x) ∧
      e.KeepsDirectory dir (p.outcome e s).2

theorem splits_note (he : e.Reflects dir Directory.Evolves) (policy : DemotionPolicy) (n : Note) :
    Splits e dir policy (Program.call (.note n)) := by
  refine fun s hs => ⟨fun before x after h => .inl ⟨n, ?_⟩, he.keeps_keeper s (.note n) hs⟩
  have hx : x ∈ (Program.call (.note n)).trace e s := h ▸ by simp
  obtain rfl : x = e.exchange (.note n) s := List.mem_singleton.1 hx
  rfl

/-- A place in a trace after that of a program is in the one or in the other. -/
theorem append_split {α : Type} {l l' before after : List α} {x : α}
    (h : l ++ l' = before ++ x :: after) :
    (∃ more, l = before ++ x :: more) ∨ ∃ more, before = l ++ more ∧ l' = more ++ x :: after := by
  obtain hright | ⟨more, hl, hafter⟩ := List.append_eq_append_iff.1 h
  · exact .inr hright
  · cases more with
    | nil => exact .inr ⟨[], by simpa using hl.symm, by simpa using hafter.symm⟩
    | cons y more =>
      obtain ⟨rfl, -⟩ := List.cons.inj hafter
      exact .inl ⟨more, hl⟩

theorem closed_splits (he : e.Reflects dir Directory.Evolves) (policy : DemotionPolicy) :
    Program.Closed fun p => Splits e dir policy p where
  pure a s hs := ⟨fun before x after h => absurd h (by simp), hs⟩
  bind := by
    intro α β p f hp hf s hs
    obtain ⟨hfirst, hs'⟩ := hp s hs
    obtain ⟨hsecond, hs''⟩ := hf (p.outcome e s).1 _ hs'
    rw [Program.outcome_bind]
    refine ⟨fun before x after h => ?_, hs''⟩
    rw [Program.trace_bind] at h
    -- the exchange is one of the first part, or one of the second
    obtain ⟨more, hmore⟩ | ⟨more, rfl, hmore⟩ := append_split h
    · exact hfirst before x more hmore
    · exact (hsecond more x after hmore).prepend _
  note n _ _ := splits_note he policy n

/-- An exchange of a check belongs to it. -/
theorem splits_check (he : e.Reflects dir Directory.Evolves) {policy : DemotionPolicy} {α : Type}
    {p : Program α} (name : CheckName)
    (hp : checkOf e.home policy name = p >>= fun _ => pure ()) : Splits e dir policy p := by
  refine fun s hs => ⟨fun before x after h => ?_, ?_⟩
  · refine .inr ⟨name, s, [], before, after, hs, rfl, ?_⟩
    rw [hp, Program.trace_bind, h]
    simp
  · exact Program.outcome_invariant he.keeps_keeper p hs

/-- **Every exchange of a cycle belongs to one of its checks, or is a note.** -/
theorem belongs_body (he : e.Reflects dir Directory.Evolves) {policy : DemotionPolicy} {s : σ}
    (hs : e.KeepsDirectory dir s) {before after : List (Exchange σ)} {x : Exchange σ}
    (h : (body e.home policy).trace e s = before ++ x :: after) :
    Belongs e dir policy before x := by
  have hsplits : Splits e dir policy (body e.home policy) :=
    closed_body (closed_splits he policy) (splits_note he policy _)
      (splits_check he .repair rfl) (splits_check he .audit rfl) (splits_check he .stall rfl)
  exact (hsplits s hs).1 before x after h

theorem checkOf_permits (home : Node) (policy : DemotionPolicy) (name : CheckName) :
    (checkOf home policy name).Meets (.heard (Permits home policy.canOffline name))
      (fun _ _ => True) [] := by
  cases name with
  | repair =>
    exact Program.meets_bind.2 (Program.Meets.mono (Repair.check_permits home policy.canOffline)
      fun _ _ _ => trivial)
  | audit =>
    exact Program.meets_bind.2 (Program.Meets.mono (Audit.check_permits home policy.canOffline)
      fun _ _ _ => trivial)
  | stall =>
    exact Program.meets_bind.2 (Program.Meets.mono (Stall.check_permits home policy)
      fun _ _ _ => trivial)

/-- **What a check asks is permitted after what it was told, and what it was told is known.** -/
theorem checkOf_told (he : e.Reflects dir Directory.Evolves) {policy : DemotionPolicy}
    {name : CheckName} {s : σ} (hs : e.KeepsDirectory dir s) {told later : List (Exchange σ)}
    {x : Exchange σ} (h : (checkOf e.home policy name).trace e s = told ++ x :: later) :
    Permits e.home policy.canOffline name (told.map Exchange.told) x.request ∧
      (dir x.before).Knows e.home (told.map Exchange.told) ∧
      (dir x.before).Responds Directory.Evolves x.request x.answer (dir x.after) := by
  have hpermits := (checkOf_permits e.home policy name).trace h
  obtain ⟨hknows, hx⟩ := Program.trace_invariant
    (I := fun h s => Directory.Knows e.home h (dir s))
    (fun h s r hk => hk.told (he.exchange r s)) (.nil hs) h
  refine ⟨hpermits, hknows, ?_⟩
  rw [hx]
  exact he.exchange _ _

theorem trace_checkOf (home : Node) (policy : DemotionPolicy) (s : σ) :
    (checkOf home policy .repair).trace e s = (Repair.check home).run.trace e s ∧
      (checkOf home policy .stall).trace e s = (Stall.check home policy).run.trace e s := by
  constructor <;> exact (Program.trace_bind _ _ s).trans (List.append_nil _)

/-- What a check was told of a database is still so when it writes. -/
theorem hosted_of_turn {h : List Told} {home : Node} {d : Directory} {database : Database}
    {status : CopyStatus} (hknows : d.Knows home h) (hturn : AtTurn home database status h) :
    database ∈ d.hosted := by
  obtain ⟨before, since, hosted, rfl, -, hhosted, hmem, -⟩ := hturn
  exact hknows.hosted hosted (List.mem_append_left _ hhosted) database hmem

/-- A check that was told that the home node is a full member was told so by the directory. -/
theorem online_of_told (he : e.Reflects dir Directory.Evolves) {policy : DemotionPolicy}
    {name : CheckName} {s : σ} (hs : e.KeepsDirectory dir s) {told later : List (Exchange σ)}
    {x : Exchange σ} (h : (checkOf e.home policy name).trace e s = told ++ x :: later)
    (honline : ToldOnline (told.map Exchange.told)) :
    ∃ y ∈ told, (dir y.before).homeStatus = .ok .online := by
  obtain ⟨y, hy, hytold⟩ := List.mem_map.1 honline
  obtain ⟨earlier, between, rfl⟩ := List.append_of_mem hy
  have hsplit : (checkOf e.home policy name).trace e s =
      earlier ++ y :: (between ++ x :: later) := by simpa using h
  obtain ⟨-, -, hresponds⟩ := checkOf_told he hs hsplit
  refine ⟨y, hy, ?_⟩
  obtain ⟨request, before, answer, after⟩ := y
  cases hytold
  exact hresponds.2 _ rfl

/-- An exchange that comes after others is one of a check, in which it comes after those in `told`. -/
def InCheck {α : Type} (e : Surroundings σ) (check : Program α) (before : List (Exchange σ))
    (x : Exchange σ) (told : List (Exchange σ)) : Prop :=
  ∃ s earlier later, before = earlier ++ told ∧ check.trace e s = told ++ x :: later

/-- The two kinds of writes of the loop, for a write `x` that comes after the exchanges `before`. -/
inductive LoopWrite (e : Surroundings σ) (dir : σ → Directory) (policy : DemotionPolicy)
    (before : List (Exchange σ)) (x : Exchange σ) : CopyKey → CopyStatus → Prop
  /-- The repair check sets a local copy online that was offline at its turn in this check. -/
  | restores {database : Database} {told : List (Exchange σ)}
      (hcheck : InCheck e (Repair.check e.home).run before x told)
      (hturn : AtTurn e.home database .offline (told.map Exchange.told)) :
      LoopWrite e dir policy before x ⟨e.home, database⟩ .online
  /-- The stall check sets the copy of another member offline, if the settings allow it.  The local
  copy was online at its turn in this check, and the other one is online up to the write. -/
  | demotes {peer : Node} {database : Database} {told : List (Exchange σ)}
      (hcheck : InCheck e (Stall.check e.home policy).run before x told)
      (hturn : AtTurn e.home database .online (told.map Exchange.told))
      (hallowed : policy.canOffline = true) (hpeer : peer ≠ e.home)
      (hmember : peer ∈ (dir x.before).members.keys)
      (honline : (dir x.before).entries.find? ⟨peer, database⟩ = some .online) :
      LoopWrite e dir policy before x ⟨peer, database⟩ .offline

/-- A copy that the loop sets offline is online up to the write. -/
theorem LoopWrite.online {policy : DemotionPolicy} {before : List (Exchange σ)} {x : Exchange σ}
    {key : CopyKey} (h : LoopWrite e dir policy before x key .offline) :
    (dir x.before).entries.find? key = some .online := by
  cases h with
  | demotes _ _ _ _ _ honline => exact honline

/-- **A cycle writes nothing else**, and only about databases that are hosted. -/
theorem loopWrite_of_trace (he : e.Reflects dir Directory.Evolves) {policy : DemotionPolicy} {s : σ}
    (hs : e.KeepsDirectory dir s) {before after : List (Exchange σ)} {x : Exchange σ}
    (h : (body e.home policy).trace e s = before ++ x :: after) {key : CopyKey}
    {status : CopyStatus} (hwrite : x.request = .setStatus key status) :
    key.database ∈ (dir x.before).hosted ∧ LoopWrite e dir policy before x key status := by
  obtain ⟨n, hn⟩ | ⟨name, s', earlier, told, later, hs', rfl, htrace⟩ := belongs_body he hs h
  · cases hn.symm.trans hwrite
  obtain ⟨hpermits, hknows, -⟩ := checkOf_told he hs' htrace
  rw [hwrite] at hpermits
  cases hpermits with
  | restore hturn =>
    rw [(trace_checkOf _ _ s').1] at htrace
    exact ⟨hosted_of_turn hknows hturn, .restores ⟨s', earlier, later, rfl, htrace⟩ hturn⟩
  | demote hallowed hpeer hnodes hmember hturn hjust =>
    rw [(trace_checkOf _ _ s').2] at htrace
    have hmember' := hknows.members _ _ hnodes _ hmember
    have honline := hknows.just _ _ hjust
    exact ⟨hosted_of_turn hknows hturn, .demotes ⟨s', earlier, later, rfl, htrace⟩ hturn hallowed
      hpeer hmember' honline⟩

/-- **While the home node is no full member a cycle writes, installs and sends nothing.** -/
theorem idle_of_cut_off (he : e.Reflects dir Directory.Evolves) {policy : DemotionPolicy} {s : σ}
    (hs : e.KeepsDirectory dir s)
    (hcut : ∀ y ∈ (body e.home policy).trace e s, (dir y.before).homeStatus ≠ .ok .online) :
    ∀ x ∈ (body e.home policy).trace e s,
      (∀ key status, x.request ≠ .setStatus key status) ∧
      (∀ source, x.request ≠ .install source) ∧
      ∀ database peers timeoutMs, x.request ≠ .heartbeat database peers timeoutMs := by
  intro x hx
  obtain ⟨before, after, h⟩ := List.append_of_mem hx
  obtain ⟨n, hn⟩ | ⟨name, s', earlier, told, later, hs', rfl, htrace⟩ := belongs_body he hs h
  · rw [hn]
    exact ⟨nofun, nofun, nofun⟩
  obtain ⟨hpermits, -, -⟩ := checkOf_told he hs' htrace
  have hnot : ¬ ToldOnline (told.map Exchange.told) := by
    intro honline
    obtain ⟨y, hy, hstanding⟩ := online_of_told he hs' htrace honline
    exact hcut y (h ▸ by simp [hy]) hstanding
  -- whatever else a check asks for it may ask for only once it was told of a full member
  generalize x.request = r at hpermits
  cases hpermits with
  | homeStatus | databases | status | onlineNodes | note => exact ⟨nofun, nofun, nofun⟩
  | install honline | heartbeat honline => exact absurd honline hnot
  | restore hturn => exact absurd hturn.online hnot
  | demote _ _ _ _ hturn => exact absurd hturn.online hnot

/-- The trace of a cycle is what is written down of it if its requests are watched. -/
theorem asked_body (e : Surroundings σ) (policy : DemotionPolicy) (s : σ) :
    (((body e.home policy).within e.watched).finish 0 ⟨s, []⟩).2.asked =
      ((body e.home policy).trace e s).map Exchange.request := by
  have hfinish := Program.finish_within (e := e.watched) (body e.home policy) 0 ⟨s, []⟩
  rw [Program.outcome_watched] at hfinish
  exact congrArg (·.2.asked) hfinish

/-- **Write discipline** of the health loop. -/
theorem write_discipline (e : Surroundings σ) (dir : σ → Directory) (policy : DemotionPolicy) :
    (e.Reflects dir Directory.Evolves → ∀ s, (dir s).home = e.home →
      let t := (body e.home policy).trace e s
      -- the trace is what is written down of the cycle if its requests are watched
      (((body e.home policy).within e.watched).finish 0 ⟨s, []⟩).2.asked =
          t.map Exchange.request ∧
      -- a write is of one of the two kinds, and about a database that is hosted
      (∀ before x after key status, t = before ++ x :: after → x.request = .setStatus key status →
        key.database ∈ (dir x.before).hosted ∧ LoopWrite e dir policy before x key status) ∧
      -- while the home node is no full member nothing is written, installed or sent
      ((∀ y ∈ t, (dir y.before).homeStatus ≠ .ok .online) → ∀ x ∈ t,
        (∀ key status, x.request ≠ .setStatus key status) ∧
        (∀ source, x.request ≠ .install source) ∧
        ∀ database peers timeoutMs, x.request ≠ .heartbeat database peers timeoutMs)) ∧
    -- if nobody else changes the directory, no entry is made or dropped, and none is touched of a
    -- copy that is being installed or backed up
    (e.Reflects dir Eq → ∀ n s order order', (dir s).home = e.home →
      let p := (Pool.ofFresh n ⟨false, s⟩).steps e policy order
      let d := dir p.shared.world
      let d' := dir (p.steps e policy order').shared.world
      d'.entries.keys = d.entries.keys ∧
        ∀ key status, status = .synchronizing ∨ status = .backup →
          (d'.entries.find? key = some status ↔ d.entries.find? key = some status)) := by
  refine ⟨fun he s hs => ⟨asked_body e policy s, ?_, idle_of_cut_off he hs⟩,
    fun he n s order order' hs => ?_⟩
  · intro before x after key status h hwrite
    exact loopWrite_of_trace he hs h hwrite
  · intro p d d'
    have hsteps : Relation.ReflTransGen (Directory.LoopStep e.home policy.canOffline) d d' :=
      Pool.loopSteps he policy hs order order'
    refine ⟨Directory.keys_of_loopSteps hsteps, fun key status hstatus => ?_⟩
    obtain rfl | rfl := hstatus
    · exact Directory.find?_of_loopSteps hsteps key nofun nofun
    · exact Directory.find?_of_loopSteps hsteps key nofun nofun

/-- A cluster that grows while a copy is installed and while a heartbeat waits for answers, of which
there is one. -/
def growingCluster : Surroundings (World Unit) :=
  World.surroundings "n1"
    (fun _ => .pause 5 (.look fun w =>
      .become { w with directory := w.directory.enroll "n4" .online } (.done (.ok true))))
    fun database _ _ => .pause 200 (.look fun w =>
      .become { w with directory := w.directory.host "Late" }
        (.done (.ok (Table.ofList [("n3", ⟨"n3", database, 1⟩)]))))

/-- A cluster that nobody but the loop changes, in which one peer answers. -/
def steadyCluster : Surroundings (World Unit) :=
  World.surroundings "n1" (fun _ => .done (.ok true))
    fun database _ _ => .done (.ok (Table.ofList [("n3", ⟨"n3", database, 1⟩)]))

/-- A node of some standing with two databases, and two peers. -/
def nodeOf (standing : MemberStatus) : World Unit where
  directory := {
    home := "n1"
    members := .ofList [("n1", standing), ("n2", .online), ("n3", .online)]
    hosted := ["Orders", "Users"]
    entries := .ofList [(⟨"n1", "Orders"⟩, .online), (⟨"n2", "Orders"⟩, .online),
      (⟨"n3", "Orders"⟩, .online), (⟨"n1", "Users"⟩, .offline), (⟨"n2", "Users"⟩, .backup),
      (⟨"n3", "Users"⟩, .online)] }
  own := ()

theorem growingCluster_reflects :
    growingCluster.Reflects World.directory Directory.Evolves :=
  World.reflects (fun _ _ _ _ => ⟨⟨[.enroll "n4" .online], rfl⟩, trivial⟩)
    fun _ _ _ _ _ _ => ⟨⟨[.host "Late"], rfl⟩, trivial⟩

/-- The silent peer is online at the moment at which it is set offline; a node that is still joining
writes nothing; and a copy that is being backed up is left alone. -/
theorem write_discipline_clusters :
    let t := (body "n1" ⟨true, 200⟩).trace growingCluster (nodeOf .online)
    let p := (Pool.ofFresh 1 ⟨false, nodeOf .online⟩).steps steadyCluster ⟨true, 200⟩ [0]
    (∃ before x after, t = before ++ x :: after ∧
      x.request = .setStatus ⟨"n2", "Orders"⟩ .offline ∧
      x.before.directory.entries.find? ⟨"n2", "Orders"⟩ = some .online) ∧
    (∀ x ∈ (body "n1" ⟨true, 200⟩).trace growingCluster (nodeOf .starting),
      ∀ key status, x.request ≠ .setStatus key status) ∧
    p.shared.world.directory.entries.find? ⟨"n2", "Orders"⟩ = some .offline ∧
      p.shared.world.directory.entries.find? ⟨"n2", "Users"⟩ = some .backup := by
  intro t p
  obtain ⟨hruns, -⟩ := write_discipline growingCluster World.directory ⟨true, 200⟩
  obtain ⟨-, hwrites, -⟩ := hruns growingCluster_reflects (nodeOf .online) rfl
  obtain ⟨-, -, hcut⟩ := hruns growingCluster_reflects (nodeOf .starting) rfl
  obtain ⟨-, hsteady⟩ := write_discipline steadyCluster World.directory ⟨true, 200⟩
  have hreflects : steadyCluster.Reflects World.directory Eq :=
    World.reflects (fun _ _ => trivial) fun _ _ _ _ => trivial
  refine ⟨?_, ?_, rfl, ?_⟩
  · have hlength : 24 < t.length := by decide
    have hrequest : t[24].request = .setStatus ⟨"n2", "Orders"⟩ .offline := rfl
    obtain ⟨before, after, ht⟩ := List.append_of_mem (List.getElem_mem hlength)
    obtain ⟨-, hwrite⟩ := hwrites before _ after _ _ ht hrequest
    exact ⟨before, _, after, ht, hrequest, hwrite.online⟩
  · have hstanding : ∀ y ∈ (body "n1" ⟨true, 200⟩).trace growingCluster (nodeOf .starting),
        y.before.directory.homeStatus ≠ .ok .online := by
      intro y hy honline
      have hmember : ∀ y ∈ (body "n1" ⟨true, 200⟩).trace growingCluster (nodeOf .starting),
          (y.before.directory.members.find? y.before.directory.home).getD .offline ≠ .online := by
        decide
      exact hmember y hy (Directory.whileOpen_eq_ok.1 honline).2
    exact fun x hx => (hcut hstanding x hx).1
  · exact ((hsteady hreflects 1 (nodeOf .online) [] [0] rfl).2 ⟨"n2", "Users"⟩ .backup
      (.inr rfl)).2 rfl

end Cycle

end Upkeep
