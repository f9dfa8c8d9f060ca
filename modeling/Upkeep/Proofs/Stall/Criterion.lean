import Mathlib.Data.List.Induction
import Upkeep.Proofs.Stall.Decision

/-!
# Who is set offline

The copies that a stall check takes out of service, read off the directory at its start and the
echoes of its heartbeats.  Each heartbeat is sent as the turn of its database comes, so what becomes
of it may depend on all that its probes and those of the heartbeats before it have done.

* `Stall.Condemned` : the conditions for one copy.
* `Stall.demotion_criterion` : **a copy goes from online to offline in a stall check if and only if
  the conditions hold, and no other entry changes.**

What carries it is `Stall.Underway`: after some of the hosted databases exactly the condemned copies
of those are offline, and none of their rounds was broken.
-/

namespace Upkeep

variable {ρ : Type}

namespace Directory

variable {d : Directory} {database : Database}

/-- The databases that were registered before this one. -/
def hostedBefore (d : Directory) (database : Database) : List Database :=
  d.hosted.takeWhile (· ≠ database)

theorem hostedBefore_of_split {before rest : List Database}
    (hsplit : d.hosted = before ++ database :: rest) (hnodup : d.hosted.Nodup) :
    d.hostedBefore database = before := by
  rw [hsplit] at hnodup
  have hnew : ∀ x ∈ before, (decide (x ≠ database)) = true := by
    intro x hx
    exact decide_eq_true ((List.nodup_append.1 hnodup).2.2 x hx database List.mem_cons_self)
  rw [hostedBefore, hsplit, List.takeWhile_append_of_pos hnew,
    List.takeWhile_cons_of_neg (by simp), List.append_nil]

/-- What comes before a database comes before the later ones as well. -/
theorem mem_hostedBefore_of_split {before rest : List Database} {later : Database}
    (hsplit : d.hosted = before ++ database :: rest) (hnodup : d.hosted.Nodup)
    (hlater : later ∈ rest) : database ∈ d.hostedBefore later := by
  obtain ⟨middle, rest', rfl⟩ := List.mem_iff_append.1 hlater
  have hsplit' : d.hosted = (before ++ database :: middle) ++ later :: rest' := by
    simpa using hsplit
  rw [hostedBefore_of_split hsplit' hnodup]
  exact List.mem_append_right _ List.mem_cons_self

end Directory

namespace Stall

/-- The world in which the turn of a database comes in a check: the turns of those that were
registered before it are over. -/
def worldAt (e : Surroundings (World ρ)) (home : Node) (policy : DemotionPolicy) (w : World ρ)
    (database : Database) : World ρ :=
  ((Check.gather (checkDatabase home policy) (w.directory.hostedBefore database)).run.outcome e w).2

/-- The echo of the heartbeat of a database in a check. -/
def echoAt (f : FanOut (World ρ)) (home : Node) (installer : Installer (World ρ))
    (policy : DemotionPolicy) (w : World ρ) (database : Database) : Echo :=
  echoIn f home database
    (worldAt (World.surroundings home installer f.send) home policy w database)

variable {echoes : Database → Echo} {policy : DemotionPolicy} {home : Node} {d d' : Directory}
  {peer : Node} {database : Database}

/-- A heartbeat is sent for the database, and a probe ends its round within the window. -/
def RoundBroken (echoes : Database → Echo) (policy : DemotionPolicy) (home : Node) (d : Directory)
    (database : Database) : Prop :=
  holdsRound home d database = true ∧ (echoes database).BreaksBy policy.timeoutMs

instance (echoes : Database → Echo) (policy : DemotionPolicy) (home : Node) (d : Directory)
    (database : Database) : Decidable (RoundBroken echoes policy home d database) :=
  inferInstanceAs (Decidable (_ ∧ _))

/-- The conditions under which a stall check sets the copy of a peer offline. -/
structure Condemned (echoes : Database → Echo) (policy : DemotionPolicy) (home : Node)
    (d : Directory) (peer : Node) (database : Database) : Prop where
  /-- The home node is a full member. -/
  standing : d.members.find? home = some .online
  /-- The home node hosts the database. -/
  hosted : database ∈ d.hosted
  /-- Its own copy is online. -/
  localCopy : d.entries.find? ⟨home, database⟩ = some .online
  /-- The peer is a member, -/
  member : peer ∈ d.members.keys
  /-- and not the home node, -/
  other : peer ≠ home
  /-- and its copy is online. -/
  copy : d.entries.find? ⟨peer, database⟩ = some .online
  /-- The settings allow the home node to set copies of its peers offline. -/
  allowed : policy.canOffline = true
  /-- The peer did not answer this message in time. -/
  silent : ¬(echoes database).AnswersBy policy.timeoutMs peer
  /-- Somebody else who was asked did. -/
  heard : ∃ someone ∈ peersOf home d database, someone ≠ peer ∧
    (echoes database).AnswersBy policy.timeoutMs someone
  /-- This round was not broken, -/
  unbroken : ¬RoundBroken echoes policy home d database
  /-- nor was the round of a database before it. -/
  reached : ∀ earlier ∈ d.hostedBefore database, ¬RoundBroken echoes policy home d earlier

theorem Condemned.mem_peersOf (h : Condemned echoes policy home d peer database) :
    peer ∈ peersOf home d database := Stall.mem_peersOf.2 ⟨⟨h.member, h.copy⟩, h.other⟩

theorem Condemned.holdsRound (h : Condemned echoes policy home d peer database) :
    Stall.holdsRound home d database = true :=
  decide_eq_true ⟨h.localCopy, List.ne_nil_of_mem h.mem_peersOf⟩

/-- After some of the hosted databases, exactly the condemned copies of those are offline, and none
of their rounds was broken. -/
structure Underway (echoes : Database → Echo) (policy : DemotionPolicy) (home : Node)
    (d : Directory) (before : List Database) (d' : Directory) : Prop where
  /-- The condemned copies are offline, and nothing else has changed. -/
  loses : d.Loses (fun key => key.database ∈ before ∧
    Condemned echoes policy home d key.node key.database) d'
  /-- No round was broken. -/
  unbroken : ∀ earlier ∈ before, ¬RoundBroken echoes policy home d earlier

section Steps

variable {before rest : List Database} {d'' : Directory} {reply : Reply (List PeerDemotion)}

theorem Underway.start (echoes : Database → Echo) (policy : DemotionPolicy) (home : Node)
    (d : Directory) : Underway echoes policy home d [] d where
  loses := .refl fun _ h => List.not_mem_nil h.1
  unbroken := List.forall_mem_nil _

/-- The entries of a database whose turn has not come are as they were. -/
theorem Underway.entries_eq (h : Underway echoes policy home d before d')
    (hnew : database ∉ before) (node : Node) :
    d'.entries.find? ⟨node, database⟩ = d.entries.find? ⟨node, database⟩ :=
  h.loses.kept _ fun hboth => hnew hboth.1.1

/-- A database without a round loses no copy. -/
theorem Underway.idle (h : Underway echoes policy home d before d')
    (hidle : holdsRound home d database = false) :
    Underway echoes policy home d (before ++ [database]) d' where
  loses := by
    refine h.loses.congr fun key => ?_
    constructor
    · rintro ⟨hmem, hkey⟩
      exact ⟨List.mem_append_left _ hmem, hkey⟩
    · rintro ⟨hmem, hkey⟩
      refine ⟨(List.mem_append.1 hmem).resolve_right fun hthis => ?_, hkey⟩
      have hholds := hkey.holdsRound
      rw [List.mem_singleton.1 hthis, hidle] at hholds
      exact absurd hholds Bool.false_ne_true
  unbroken := by
    refine List.forall_mem_append.2 ⟨h.unbroken, List.forall_mem_singleton.2 fun hbroken => ?_⟩
    exact absurd (hidle.symm.trans hbroken.1) Bool.false_ne_true

/-- Once a round is broken, everything that is to be set offline is: the copies of this database and
of the later ones are spared. -/
theorem Underway.broken (h : Underway echoes policy home d before d') (hnodup : d.hosted.Nodup)
    (hsplit : d.hosted = before ++ database :: rest)
    (hround : RoundBroken echoes policy home d database) :
    d.Loses (fun key => Condemned echoes policy home d key.node key.database) d' := by
  refine h.loses.congr fun key => ⟨And.right, fun hkey => ⟨?_, hkey⟩⟩
  -- `key` is condemned, so neither its own round nor one before it was broken
  have hmem := hkey.hosted
  rw [hsplit] at hmem
  refine (List.mem_append.1 hmem).resolve_right fun hthis => ?_
  obtain heq | hlater := List.mem_cons.1 hthis
  · exact hkey.unbroken (heq ▸ hround)
  · exact hkey.reached _ (Directory.mem_hostedBefore_of_split hsplit hnodup hlater) hround

/-- What a round that was not broken takes out of service is what is condemned of its database. -/
theorem Underway.missed_iff (h : Underway echoes policy home d before d')
    (hstanding : d.members.find? home = some .online) (hnodup : d.hosted.Nodup)
    (hsplit : d.hosted = before ++ database :: rest) (hholds : holdsRound home d database = true)
    (hround : ¬RoundBroken echoes policy home d database) (key : CopyKey) :
    Missed (echoes database) policy database (peersOf home d database) key ↔
      key.database = database ∧ Condemned echoes policy home d key.node key.database := by
  obtain ⟨node, database'⟩ := key
  constructor
  · rintro ⟨hallowed, hthis, hmem, hsilent, other, hother, hanswer⟩
    obtain rfl : database' = database := hthis
    obtain ⟨⟨hmember, hcopy⟩, hne⟩ := mem_peersOf.1 hmem
    have hhosted : database' ∈ d.hosted := hsplit ▸ List.mem_append_right _ List.mem_cons_self
    have hlocal : d.entries.find? ⟨home, database'⟩ = some .online := (of_decide_eq_true hholds).1
    -- who answered in time is not the one who did not
    have hheard : other ≠ node := by
      rintro rfl
      exact hsilent hanswer
    refine ⟨rfl, hstanding, hhosted, hlocal, hmember, hne, hcopy, hallowed, hsilent,
      ⟨other, hother, hheard, hanswer⟩, hround, ?_⟩
    rw [Directory.hostedBefore_of_split hsplit hnodup]
    exact h.unbroken
  · rintro ⟨hthis, hkey⟩
    obtain rfl : database' = database := hthis
    obtain ⟨other, hother, -, hanswer⟩ := hkey.heard
    exact ⟨hkey.allowed, rfl, hkey.mem_peersOf, hkey.silent, other, hother, hanswer⟩

/-- After a round that was not broken the condemned copies of its database are offline as well. -/
theorem Underway.decided (h : Underway echoes policy home d before d')
    (hstanding : d.members.find? home = some .online) (hnodup : d.hosted.Nodup)
    (hsplit : d.hosted = before ++ database :: rest) (hholds : holdsRound home d database = true)
    (hround : ¬RoundBroken echoes policy home d database)
    (hloses : d'.Loses (Missed (echoes database) policy database (peersOf home d database)) d'') :
    Underway echoes policy home d (before ++ [database]) d'' where
  loses := by
    refine (h.loses.trans hloses).congr fun key => ?_
    rw [h.missed_iff hstanding hnodup hsplit hholds hround, List.mem_append, List.mem_singleton,
      or_and_right]
  unbroken := List.forall_mem_append.2 ⟨h.unbroken, List.forall_mem_singleton.2 hround⟩

/-- **One turn more**: either the check goes on, or everything that is to be set offline is. -/
theorem Underway.turn (h : Underway echoes policy home d before d')
    (hstanding : d.members.find? home = some .online) (hnodup : d.hosted.Nodup)
    (hsplit : d.hosted = before ++ database :: rest)
    (hturn : Turn (echoes database) policy home database d' reply d'') :
    (∃ found, reply = .ok found ∧ Underway echoes policy home d (before ++ [database]) d'') ∨
      (∃ a, reply = .error a) ∧ d.Loses (fun key =>
        Condemned echoes policy home d key.node key.database) d'' := by
  have hnew : database ∉ before := by
    rw [hsplit] at hnodup
    exact fun hmem => (List.nodup_append.1 hnodup).2.2 _ hmem _ List.mem_cons_self rfl
  -- the turns before have left the entries of this database alone
  have hentries := h.entries_eq hnew
  have hheld := holdsRound_congr home h.loses.members hentries
  have hpeers := peersOf_congr home h.loses.members hentries
  cases hturn with
  | idle hidle => exact .inl ⟨[], rfl, h.idle (hheld ▸ hidle)⟩
  | broken a hholds hbroken =>
    exact .inr ⟨⟨a, rfl⟩, h.broken hnodup hsplit ⟨hheld ▸ hholds, hbroken⟩⟩
  | decided found _ hholds hunbroken hloses =>
    rw [hpeers] at hloses
    have hround : ¬RoundBroken echoes policy home d database := fun hround => hunbroken hround.2
    exact .inl ⟨found, rfl, h.decided hstanding hnodup hsplit (hheld ▸ hholds) hround hloses⟩

end Steps

section Checks

variable {f : FanOut (World ρ)} {installer : Installer (World ρ)} {w : World ρ}

/-- **After some of the hosted databases** the check goes on, and exactly the condemned copies of
those are offline; or it has ended, and exactly the condemned copies of all are. -/
theorem runs_underway (hf : f.LeavesDirectory) (installer : Installer (World ρ))
    (policy : DemotionPolicy) (hreach : w.directory.Reachable home)
    (hopen : w.directory.closed = false)
    (hstanding : w.directory.members.find? home = some .online) (before rest : List Database)
    (hsplit : w.directory.hosted = before ++ rest) :
    let e := World.surroundings home installer f.send
    let echoes := echoAt f home installer policy w
    ∃ acts reply w', (Check.gather (checkDatabase home policy) before).Runs e w acts reply w' ∧
      ((∃ found, reply = .ok found) ∧ Underway echoes policy home w.directory before w'.directory ∧
          w'.directory.Reachable home ∧ w'.directory.closed = false ∨
        (∃ a, reply = .error a) ∧ w.directory.Loses (fun key =>
          Condemned echoes policy home w.directory key.node key.database) w'.directory) := by
  intro e echoes
  have hnodup := hreach.nodup_hosted
  induction before using List.reverseRecOn generalizing rest with
  | nil =>
    exact ⟨[], .ok [], w, Check.runs_pure [] w, .inl ⟨⟨[], rfl⟩, .start _ _ _ _, hreach, hopen⟩⟩
  | append_singleton before database ih =>
    have hsplit' : w.directory.hosted = before ++ database :: rest := by simpa using hsplit
    obtain ⟨acts, reply, w', hruns, ⟨⟨found, rfl⟩, hunder, hreach', hopen'⟩ | ⟨⟨a, rfl⟩, hend⟩⟩ :=
      ih (database :: rest) hsplit'
    · -- it is the turn of the next database
      obtain ⟨v, rfl, rfl, hv, ⟨hvisited, hbeats⟩, hafter⟩ :=
        runs_checkDatabase home installer hf.spares policy database w' ⟨hreach', hopen'⟩
      have hecho : echoes v.item = echoIn f home v.item v.before := by
        have hworld : worldAt e home policy w v.item = v.before := by
          rw [worldAt, Directory.hostedBefore_of_split hsplit' hnodup]
          exact congrArg Prod.snd hruns.outcome_eq
        exact congrArg (echoIn f home v.item) hworld
      have hturn := hvisited.turn hf hbeats
      rw [← hecho] at hturn
      refine ⟨_, _, _, hruns.gather_concat hv, ?_⟩
      obtain ⟨found', hreply, hnext⟩ | ⟨⟨a, hreply⟩, hend⟩ :=
        hunder.turn hstanding hnodup hsplit' hturn
      · rw [hreply]
        exact .inl ⟨⟨_, rfl⟩, hnext, hafter⟩
      · rw [hreply]
        exact .inr ⟨⟨a, rfl⟩, hend⟩
    · exact ⟨acts, .error a, w', hruns.gather_error [database], .inr ⟨⟨a, rfl⟩, hend⟩⟩

/-- A node that is not a full member decides about nobody. -/
theorem runs_leftOut (installer : Installer (World ρ)) (transport : Transport (World ρ))
    (policy : DemotionPolicy) (hhome : w.directory.home = home) (hopen : w.directory.closed = false)
    (hstanding : w.directory.members.find? home ≠ some .online) :
    ∃ w', (check home policy).Runs (World.surroundings home installer transport) w [] (.ok []) w' ∧
      w'.directory = w.directory := by
  let standing := (w.directory.members.find? home).getD .offline
  have hoffline : standing.isOnline = false := by
    cases hfind : w.directory.members.find? home with
    | none => simp [standing, hfind, MemberStatus.isOnline]
    | some status =>
      rw [hfind] at hstanding
      simpa [standing, hfind, MemberStatus.isOnline] using hstanding
  refine ⟨w.note (.report (.stallLeftOut home standing)),
    (Check.runs_standing hopen hhome).after_quiet ?_, rfl⟩
  rw [show (w.directory.members.find? home).getD .offline = standing from rfl, hoffline]
  exact (Check.runs_report _ w).after_quiet (Check.runs_pure [] _)

/-- **A stall check leaves exactly the condemned copies offline.** -/
theorem loses_check (hf : f.LeavesDirectory) (installer : Installer (World ρ))
    (policy : DemotionPolicy) (hreach : w.directory.Reachable home)
    (hopen : w.directory.closed = false) :
    w.directory.Loses (fun key => Condemned (echoAt f home installer policy w) policy home
        w.directory key.node key.database)
      ((check home policy).run.outcome (World.surroundings home installer f.send) w).2.directory := by
  by_cases hstanding : w.directory.members.find? home = some .online
  · obtain ⟨acts, reply, w', hruns, hend⟩ := runs_underway hf installer policy hreach hopen
      hstanding w.directory.hosted [] (List.append_nil _).symm
    have hcheck : (check home policy).Runs (World.surroundings home installer f.send) w acts reply
        w' :=
      (Check.runs_homeStatus hopen hreach.home_eq hstanding).after_quiet
        ((Check.runs_databases hopen).after_quiet hruns)
    rw [hcheck.outcome_eq]
    obtain ⟨-, hunder, -⟩ | ⟨-, hloses⟩ := hend
    · exact hunder.loses.congr fun key => ⟨And.right, fun hkey => ⟨hkey.hosted, hkey⟩⟩
    · exact hloses
  · obtain ⟨w', hcheck, hsame⟩ := runs_leftOut installer f.send policy hreach.home_eq hopen
      hstanding
    rw [hcheck.outcome_eq]
    dsimp only
    rw [hsame]
    exact .refl fun key hkey => hstanding hkey.standing

end Checks

/-- **The demotion criterion.**  Heartbeats go out by any fan-out that leaves the directory alone.
What its probes come to may depend on all that they and the rounds before have done. -/
theorem demotion_criterion {f : FanOut (World ρ)} (hf : f.LeavesDirectory) (home : Node)
    (installer : Installer (World ρ)) (policy : DemotionPolicy) (w : World ρ)
    (hreach : w.directory.Reachable home) (hopen : w.directory.closed = false) :
    let e := World.surroundings home installer f.send
    let d := w.directory
    let d' := (((check home policy).run.within e).finish 0 w).2.directory
    (∀ peer database,
      (d.entries.find? ⟨peer, database⟩ = some .online ∧
        d'.entries.find? ⟨peer, database⟩ = some .offline) ↔
      Condemned (echoAt f home installer policy w) policy home d peer database) ∧
    ∀ key, d'.entries.find? key = d.entries.find? key ∨
      d.entries.find? key = some .online ∧ d'.entries.find? key = some .offline := by
  intro e d d'
  have hd' : d' = ((check home policy).run.outcome e w).2.directory :=
    congrArg (·.2.directory) (Program.finish_within (check home policy).run 0 w)
  have hloses := loses_check hf installer policy hreach hopen
  rw [← hd'] at hloses
  refine ⟨fun peer database => (hloses.lost_iff _).trans ?_, hloses.same_or_lost⟩
  exact ⟨And.left, fun hkey => ⟨hkey, hkey.copy⟩⟩

/-- The directory of a node with two peers that serve the same database. -/
def twoPeers : Directory :=
  ((Directory.create "n1" .online).performAll [.enroll "n2" .online, .enroll "n3" .online,
    .host "Orders", .setStatus ⟨"n1", "Orders"⟩ .online, .setStatus ⟨"n2", "Orders"⟩ .online,
    .setStatus ⟨"n3", "Orders"⟩ .online]).2

/-- One peer answers at the very end of the window, and one about another database. -/
def lateAndStray : Script where
  byName := .ofList [("n2", { latencyMs := 200 }), ("n3", { database := some "Users" })]

/-- Its peers take the whole window to answer, and one of them is out of reach. -/
def lateAndGone : MonitorWorld where
  directory := twoPeers
  own := { loopback := { unreachable := ["n3"], latencyMs := 200 } }

/-- The late peer is in time, and neither the stray answer counts nor does silence. -/
theorem demotion_criterion_lateAndStray :
    (let e := World.surroundings "n1" Stage.installer (Stage.scriptedProbes lateAndStray).send
      let w : Stage := { directory := twoPeers, own := {} }
      let d' := (((check "n1" ⟨true, 200⟩).run.within e).finish 0 w).2.directory
      d'.entries.find? ⟨"n2", "Orders"⟩ = some .online ∧
        d'.entries.find? ⟨"n3", "Orders"⟩ = some .offline) ∧
    (let e := World.surroundings "n1" Monitor.installer Monitor.fanOut.send
      let d' := (((check "n1" ⟨true, 200⟩).run.within e).finish 0 lateAndGone).2.directory
      d'.entries.find? ⟨"n2", "Orders"⟩ = some .online ∧
        d'.entries.find? ⟨"n3", "Orders"⟩ = some .offline) := by
  have hquiet : ∀ name, (lateAndStray.behaviour name).effects = [] ∧
      (lateAndStray.behaviour name).lateEffects = [] := by
    intro name
    simp only [Script.behaviour, lateAndStray, Table.ofList, List.foldl, Table.find?_put]
    split
    · exact ⟨rfl, rfl⟩
    · split <;> exact ⟨rfl, rfl⟩
  obtain ⟨hlost, hsame⟩ := demotion_criterion (Stage.leavesDirectory_scriptedProbes hquiet) "n1"
    Stage.installer ⟨true, 200⟩ { directory := twoPeers, own := {} } ⟨.online, _, rfl⟩ rfl
  obtain ⟨hgone, hkept⟩ := demotion_criterion Monitor.leavesDirectory_fanOut "n1"
    Monitor.installer ⟨true, 200⟩ lateAndGone ⟨.online, _, rfl⟩ rfl
  refine ⟨⟨?_, ?_⟩, ?_, ?_⟩
  · refine (hsame ⟨"n2", "Orders"⟩).resolve_right fun hoffline => ?_
    exact ((hlost "n2" "Orders").1 hoffline).silent (by decide +kernel)
  · refine ((hlost "n3" "Orders").2 ?_).2
    exact ⟨rfl, by decide, rfl, by decide, by decide, rfl, rfl, by decide +kernel,
      by decide +kernel, by decide +kernel, by decide⟩
  · refine (hkept ⟨"n2", "Orders"⟩).resolve_right fun hoffline => ?_
    exact ((hgone "n2" "Orders").1 hoffline).silent (by decide +kernel)
  · refine ((hgone "n3" "Orders").2 ?_).2
    exact ⟨rfl, by decide, rfl, by decide, by decide, rfl, rfl, by decide +kernel,
      by decide +kernel, by decide +kernel, by decide⟩

end Stall

end Upkeep
