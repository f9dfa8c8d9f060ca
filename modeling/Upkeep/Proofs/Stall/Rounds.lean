import Upkeep.Proofs.Cycle.Vocabulary
import Upkeep.Proofs.Directory.Deeds
import Upkeep.Proofs.Program.Visits
import Upkeep.Proofs.Stall.Peers
import Upkeep.Proofs.Steady.Turns

/-!
# What the stall check decides

The stall check visits the databases that were hosted at its start, in order, and holds at most one
round for each.  Nothing is said of the transport but that it spares the directory: it may answer
with anything, after any changes of the directory short of shutting it.

* `Stall.Held` : the ways in which a round goes.
* `Stall.stall_rounds` : **every hosted database is passed over or has its round**, up to the one
  whose round ends the check, and the two forms in which a transport may say that nobody answered
  make no difference.

What a round decides is read off the directory as the heartbeat leaves it.  That the decisions about
other peers are written in the meantime does not matter, since no peer is asked twice.
-/

namespace Upkeep

/-- Whatever a transport does to a directory it does by its operations, and it does not shut it. -/
def Transport.SparesDirectory {ρ : Type} (transport : Transport (World ρ)) : Prop :=
  ∀ database peers timeoutMs w,
    let w' := ((transport database peers timeoutMs).finish 0 w).2
    w.directory.Evolves w'.directory ∧ (w.directory.closed = false → w'.directory.closed = false)

/-- The decision about a silent peer whose copy has this status. -/
def DemotionPolicy.verdict (policy : DemotionPolicy) (status : Option CopyStatus) : Demotion :=
  if status = some .online then
    if policy.canOffline then .demoted else .suppressed
  else .notOnline

namespace Directory

variable {home : Node} {d d' : Directory}

/-- No member is listed twice. -/
theorem Reachable.nodup_members (h : Reachable home d) : d.members.keys.Nodup := by
  obtain ⟨standing, ops, rfl⟩ := h
  rw [(recorded_performAll home standing ops).members]
  exact Table.nodup_keys_ofList _

theorem evolves_write (hopen : d.closed = false) (key : CopyKey) (s : CopyStatus) :
    Evolves d (d.write key s) := by
  refine ⟨[.setStatus key s], ?_⟩
  simp only [performAll, perform, setStatus, whileOpen_of_open hopen]
  rfl

/-- The directory once the copies of some peers were set offline. -/
def strike (d : Directory) (database : Database) (peers : List Node) : Directory :=
  peers.foldl (fun d peer => d.write ⟨peer, database⟩ .offline) d

/-- The copies of these peers are offline, and any other is as it was. -/
theorem find?_strike (d : Directory) (database : Database) (peers : List Node) (key : CopyKey) :
    (d.strike database peers).entries.find? key =
      if key.database = database ∧ key.node ∈ peers then some .offline
      else d.entries.find? key := by
  induction peers generalizing d with
  | nil => simp [strike]
  | cons peer rest ih =>
    obtain ⟨node, database'⟩ := key
    refine (ih (d.write ⟨peer, database⟩ .offline)).trans ?_
    simp only [find?_write, CopyKey.mk.injEq, List.mem_cons]
    grind

theorem members_strike (d : Directory) (database : Database) (peers : List Node) :
    (d.strike database peers).members = d.members := by
  induction peers generalizing d with
  | nil => rfl
  | cons peer rest ih => exact ih (d.write ⟨peer, database⟩ .offline)

theorem evolves_strike (database : Database) (peers : List Node) (hopen : d.closed = false) :
    Evolves d (d.strike database peers) ∧ (d.strike database peers).closed = false := by
  induction peers generalizing d with
  | nil => exact ⟨.refl d, hopen⟩
  | cons peer rest ih =>
    obtain ⟨hevolves, hopen'⟩ := ih (d := d.write ⟨peer, database⟩ .offline) hopen
    exact ⟨(evolves_write hopen _ _).trans hevolves, hopen'⟩

end Directory

namespace Stall

variable {ρ : Type} {home : Node} {installer : Installer (World ρ)}
  {transport transport' : Transport (World ρ)} {policy : DemotionPolicy} {database : Database}

theorem nodup_peersOf {d : Directory} (h : d.members.keys.Nodup) :
    (peersOf home d database).Nodup :=
  (h.filter _).filter _

/-- A transport says that nobody answered, in one form or the other. -/
inductive Unanswered : Reply Responses → Prop
  /-- There are no answers. -/
  | empty {responses : Responses} (h : responses.isEmpty = true) : Unanswered (.ok responses)
  /-- The heartbeat failed for want of answers, whichever database it names. -/
  | allUnreachable (database : Database) :
    Unanswered (.error (.failure (.allUnreachable database)))

theorem Unanswered.answers?_eq {reply : Reply Responses} (h : Unanswered reply) :
    answers? reply = .ok none := by
  cases h with
  | empty h => simp [answers?, h]
  | allUnreachable => rfl

/-- A reply says that nobody answered, or brings answers, or ends the check. -/
theorem reply_cases (reply : Reply Responses) :
    Unanswered reply ∨
      (∃ responses, reply = .ok responses ∧ responses.isEmpty = false ∧
        answers? reply = .ok (some responses)) ∨
      ∃ a, reply = .error a ∧ (∀ database, a ≠ .failure (.allUnreachable database)) ∧
        answers? reply = .error a := by
  cases reply with
  | ok responses =>
    cases h : responses.isEmpty with
    | true => exact .inl (.empty h)
    | false => exact .inr (.inl ⟨responses, rfl, h, by simp [answers?, h]⟩)
  | error a =>
    by_cases hnobody : ∃ database, a = .failure (.allUnreachable database)
    · obtain ⟨database, rfl⟩ := hnobody
      exact .inl (.allUnreachable database)
    · have hother : ∀ database, a ≠ .failure (.allUnreachable database) :=
        fun database ha => hnobody ⟨database, ha⟩
      refine .inr (.inr ⟨a, rfl, hother, ?_⟩)
      cases a with
      | crash payload => rfl
      | failure e =>
        cases e with
        | allUnreachable database => exact absurd rfl (hother database)
        | _ => rfl

/-- What is decided about the silent peers of a round that leaves this directory. -/
def decisions (policy : DemotionPolicy) (d : Directory) (database : Database) (quiet : List Node) :
    List PeerDemotion :=
  quiet.map fun peer => ⟨database, peer, policy.verdict (d.entries.find? ⟨peer, database⟩)⟩

/-- The silent peers whose copies are set offline. -/
def struck (policy : DemotionPolicy) (d : Directory) (database : Database) (quiet : List Node) :
    List Node :=
  quiet.filter fun peer => policy.verdict (d.entries.find? ⟨peer, database⟩) = .demoted

/-- How a round of these peers goes: what is done in it, what is found, and what becomes of the
directory. -/
inductive Held (policy : DemotionPolicy) (database : Database) (peers : List Node) (d : Directory) :
    List (Exchange (World ρ)) → Reply (List PeerDemotion) → Directory → Prop
  /-- Nobody answers, and nothing is decided. -/
  | unanswered {x : Exchange (World ρ)} {reply : Reply Responses}
      (hx : x.told = ⟨.heartbeat database peers policy.timeoutMs, reply⟩)
      (hbefore : x.before.directory = d) (hreply : Unanswered reply) :
      Held policy database peers d [x] (.ok []) x.after.directory
  /-- Somebody answers, and each peer that is not among those who did is decided about in turn. -/
  | decided {x : Exchange (World ρ)} {writes : List (Exchange (World ρ))} {responses : Responses}
      (hx : x.told = ⟨.heartbeat database peers policy.timeoutMs, .ok responses⟩)
      (hbefore : x.before.directory = d) (hsome : responses.isEmpty = false)
      (hwrites : writes.map Exchange.told =
        (struck policy x.after.directory database (silent peers responses)).map fun peer =>
          ⟨.setStatus ⟨peer, database⟩ .offline, .ok ()⟩) :
      Held policy database peers d (x :: writes)
        (.ok (decisions policy x.after.directory database (silent peers responses)))
        (x.after.directory.strike database
          (struck policy x.after.directory database (silent peers responses)))
  /-- Any other failure ends the check, and nothing is decided. -/
  | broken {x : Exchange (World ρ)} {a : Abort}
      (hx : x.told = ⟨.heartbeat database peers policy.timeoutMs, .error a⟩)
      (hbefore : x.before.directory = d)
      (ha : ∀ other, a ≠ .failure (.allUnreachable other)) :
      Held policy database peers d [x] (.error a) x.after.directory

/-- How the turn of a database in the stall check goes. -/
inductive Visited (home : Node) (policy : DemotionPolicy) :
    Visit (World ρ) Database PeerDemotion → Prop
  /-- The local copy is not online, or no peer serves the database: there is no round. -/
  | idle {database : Database} {w : World ρ} (h : holdsRound home w.directory database = false) :
      Visited home policy ⟨database, w, [], .ok [], w⟩
  /-- There is one round of the peers that serve the database as its turn comes. -/
  | held {database : Database} {w w' : World ρ} {acts : List (Exchange (World ρ))}
      {reply : Reply (List PeerDemotion)} (h : holdsRound home w.directory database = true)
      (hround : Held policy database (peersOf home w.directory database) w.directory acts reply
        w'.directory) :
      Visited home policy ⟨database, w, acts, reply, w'⟩

section Runs

open Check (runs_pure runs_report runs_count)

/-- A silent peer is decided about by the status that it has then. -/
theorem runs_apply (home : Node) (installer : Installer (World ρ)) (transport : Transport (World ρ))
    (policy : DemotionPolicy) (database : Database) (peer : Node) {w : World ρ}
    (hopen : w.directory.closed = false) :
    ∃ writes w', writes.map Exchange.told = (struck policy w.directory database [peer]).map
        (fun peer => ⟨.setStatus ⟨peer, database⟩ .offline, .ok ()⟩) ∧
      w'.directory = w.directory.strike database (struck policy w.directory database [peer]) ∧
      (policy.apply home database peer).Runs (World.surroundings home installer transport) w writes
        (.ok (policy.verdict (w.directory.entries.find? ⟨peer, database⟩))) w' := by
  let e := World.surroundings home installer transport
  have hstatus : (Check.status ⟨peer, database⟩).Runs e w []
      (.ok (w.directory.entries.find? ⟨peer, database⟩)) w := Check.runs_status hopen _
  by_cases honline : w.directory.entries.find? ⟨peer, database⟩ = some .online
  · by_cases hcan : policy.canOffline
    · have hstruck : struck policy w.directory database [peer] = [peer] := by
        simp [struck, DemotionPolicy.verdict, honline, hcan]
      obtain ⟨x, hx, -, hwritten, hset⟩ := Check.runs_setStatus home installer transport
        (show (w.report (.peerDemoted home peer database policy.timeoutMs)).directory.closed = false
          from hopen) ⟨peer, database⟩ .offline
      refine ⟨[x], x.after.note (.count (.demotions "demoted")), ?_, ?_, hstatus.after_quiet ?_⟩
      · rw [hstruck, List.map_singleton, hx, List.map_singleton]
      · rw [hstruck]
        exact hwritten
      · rw [if_pos honline, if_pos hcan, DemotionPolicy.verdict, if_pos honline, if_pos hcan]
        refine (runs_report _ w).after_quiet (hset.bind ?_)
        exact (runs_count _ _).after_quiet (runs_pure _ _)
    · have hstruck : struck policy w.directory database [peer] = [] := by
        simp [struck, DemotionPolicy.verdict, honline, hcan]
      refine ⟨[], (w.note (.report (.demotionSuppressed home peer database policy.timeoutMs))).note
        (.count (.demotions "suppressed")), by rw [hstruck]; rfl, by rw [hstruck]; rfl,
        hstatus.after_quiet ?_⟩
      rw [if_pos honline, if_neg hcan, DemotionPolicy.verdict, if_pos honline, if_neg hcan]
      exact (runs_report _ w).after_quiet ((runs_count _ _).after_quiet (runs_pure _ _))
  · have hstruck : struck policy w.directory database [peer] = [] := by
      simp [struck, DemotionPolicy.verdict, honline]
    refine ⟨[], w, by rw [hstruck]; rfl, by rw [hstruck]; rfl, hstatus.after_quiet ?_⟩
    rw [if_neg honline, DemotionPolicy.verdict, if_neg honline]
    exact runs_pure _ w

/-- **The silent peers of a round are decided about in order**, by the directory at its end. -/
theorem runs_judge (home : Node) (installer : Installer (World ρ)) (transport : Transport (World ρ))
    (policy : DemotionPolicy) (database : Database) {quiet : List Node} (hquiet : quiet.Nodup)
    {w : World ρ} (hopen : w.directory.closed = false) :
    ∃ writes w', writes.map Exchange.told = (struck policy w.directory database quiet).map
        (fun peer => ⟨.setStatus ⟨peer, database⟩ .offline, .ok ()⟩) ∧
      w'.directory = w.directory.strike database (struck policy w.directory database quiet) ∧
      (Check.gather (judge home policy database) quiet).Runs
        (World.surroundings home installer transport) w writes
        (.ok (decisions policy w.directory database quiet)) w' := by
  induction quiet generalizing w with
  | nil => exact ⟨[], w, rfl, rfl, runs_pure [] w⟩
  | cons peer rest ih =>
    obtain ⟨hnew, hrest⟩ := List.nodup_cons.1 hquiet
    obtain ⟨first, w₁, hfirst, hwritten, hruns⟩ :=
      runs_apply home installer transport policy database peer hopen
    have hopen₁ : w₁.directory.closed = false :=
      hwritten ▸ (Directory.evolves_strike database _ hopen).2
    obtain ⟨writes, w₂, hwrites, hlast, hgather⟩ := ih hrest hopen₁
    -- the peers after this one are judged as if it had not been
    have hsame : ∀ other ∈ rest, w₁.directory.entries.find? ⟨other, database⟩ =
        w.directory.entries.find? ⟨other, database⟩ := by
      intro other hother
      rw [hwritten, Directory.find?_strike, if_neg]
      rintro ⟨-, hmem⟩
      obtain rfl : other = peer := List.mem_singleton.1 (List.mem_filter.1 hmem).1
      exact hnew hother
    have hstruck : struck policy w₁.directory database rest =
        struck policy w.directory database rest :=
      List.filter_congr fun other hother => by rw [hsame other hother]
    have hdecisions : decisions policy w₁.directory database rest =
        decisions policy w.directory database rest :=
      List.map_congr_left fun other hother => by rw [hsame other hother]
    rw [hstruck] at hwrites hlast
    rw [hdecisions] at hgather
    have hcons : struck policy w.directory database (peer :: rest) =
        struck policy w.directory database [peer] ++ struck policy w.directory database rest :=
      List.filter_append [peer] rest
    refine ⟨first ++ writes, w₂, ?_, ?_, ?_⟩
    · rw [List.map_append, hfirst, hwrites, hcons, List.map_append]
    · rw [hlast, hwritten, hcons, Directory.strike, Directory.strike, Directory.strike,
        List.foldl_append]
    · have hjudge : (judge home policy database peer).Runs
          (World.surroundings home installer transport) w first _ w₁ :=
        hruns.map (g := fun outcome => [(⟨database, peer, outcome⟩ : PeerDemotion)])
      exact hjudge.bind hgather.map

/-- The heartbeat that is sent to some peers in a round that begins in a state. -/
def heartbeatOf (home : Node) (installer : Installer (World ρ)) (transport : Transport (World ρ))
    (policy : DemotionPolicy) (database : Database) (peers : List Node) (w : World ρ) :
    Exchange (World ρ) :=
  (World.surroundings home installer transport).exchange
    (.heartbeat database peers policy.timeoutMs)
    (w.note (.report (.roundStarted home peers database)))

/-- If a round is held in a visit, the first thing that is done is to send its heartbeat. -/
def Beats (home : Node) (installer : Installer (World ρ)) (transport : Transport (World ρ))
    (policy : DemotionPolicy) (v : Visit (World ρ) Database PeerDemotion) : Prop :=
  holdsRound home v.before.directory v.item = true →
    v.acts.head? = some (heartbeatOf home installer transport policy v.item
      (peersOf home v.before.directory v.item) v.before)

/-- **A round begins with its heartbeat and goes in one of the three ways.** -/
theorem runs_round (home : Node) (installer : Installer (World ρ))
    (hspares : transport.SparesDirectory) (policy : DemotionPolicy) (database : Database)
    {peers : List Node} (hpeers : peers.Nodup) {w : World ρ} (hreach : w.directory.Reachable home)
    (hopen : w.directory.closed = false) :
    ∃ acts reply w', (round home policy database peers).Runs
        (World.surroundings home installer transport) w acts reply w' ∧
      Held policy database peers w.directory acts reply w'.directory ∧
      acts.head? = some (heartbeatOf home installer transport policy database peers w) ∧
      w'.directory.Reachable home ∧ w'.directory.closed = false := by
  let e := World.surroundings home installer transport
  let w₁ := w.note (.report (.roundStarted home peers database))
  let x := heartbeatOf home installer transport policy database peers w
  have hevolves : w.directory.Evolves x.after.directory :=
    (hspares database peers policy.timeoutMs w₁).1
  have hreach' : x.after.directory.Reachable home := hreach.evolves hevolves
  have hopen' : x.after.directory.closed = false :=
    (hspares database peers policy.timeoutMs w₁).2 hopen
  obtain ⟨reply, hx, hheartbeat⟩ :=
    Check.runs_heartbeat (e := e) database peers policy.timeoutMs w₁
  -- the check goes on with what the reply says
  have hround : ∀ {acts reply' w'},
      Check.Runs e (liftM (answers? reply) >>= judgeRound home policy database peers) x.after acts
        reply' w' →
      (round home policy database peers).Runs e w (x :: acts) reply' w' :=
    fun h => (runs_report _ w).after_quiet (hheartbeat.bind h)
  obtain hnone | ⟨responses, rfl, hsome, hanswers⟩ | ⟨a, rfl, ha, hanswers⟩ := reply_cases reply
  · refine ⟨[x], .ok [], (x.after.note (.report (.roundUnanswered home database))).note
      (.count (.rounds "unreachable")), hround ?_, .unanswered hx rfl hnone, rfl, hreach',
      hopen'⟩
    rw [hnone.answers?_eq]
    exact (runs_report _ _).after_quiet ((runs_count _ _).after_quiet (runs_pure [] _))
  · let quiet := silent peers responses
    let w₂ := x.after.note (.count (.rounds (if quiet.isEmpty then "complete" else "partial")))
    obtain ⟨writes, w', hwrites, hstruck, hjudge⟩ := runs_judge home installer transport policy
      database (hpeers.filter _ : quiet.Nodup) (w := w₂) hopen'
    obtain ⟨hstrikes, hopen''⟩ := Directory.evolves_strike database
      (struck policy x.after.directory database quiet) hopen'
    have hw' : w'.directory = x.after.directory.strike database
        (struck policy x.after.directory database quiet) := hstruck
    refine ⟨x :: writes, .ok (decisions policy x.after.directory database quiet), w', hround ?_,
      hw' ▸ .decided hx rfl hsome hwrites, rfl, hw' ▸ hreach'.evolves hstrikes, hw' ▸ hopen''⟩
    rw [hanswers]
    exact (runs_count _ _).after_quiet hjudge
  · refine ⟨[x], .error a, x.after, hround ?_, .broken hx rfl ha, rfl, hreach', hopen'⟩
    rw [hanswers]
    exact ⟨rfl, rfl⟩

/-- **A hosted database is passed over or has its round.** -/
theorem runs_checkDatabase (home : Node) (installer : Installer (World ρ))
    (hspares : transport.SparesDirectory) (policy : DemotionPolicy) (database : Database)
    (w : World ρ) (hw : w.directory.Reachable home ∧ w.directory.closed = false) :
    ∃ v : Visit (World ρ) Database PeerDemotion, v.item = database ∧ v.before = w ∧
      (checkDatabase home policy database).Runs (World.surroundings home installer transport) w
        v.acts v.reply v.after ∧
      (Visited home policy v ∧ Beats home installer transport policy v) ∧
      v.after.directory.Reachable home ∧ v.after.directory.closed = false := by
  let e := World.surroundings home installer transport
  obtain ⟨hreach, hopen⟩ := hw
  have hstatus : (Check.status ⟨home, database⟩).Runs e w []
      (.ok (w.directory.entries.find? ⟨home, database⟩)) w := Check.runs_status hopen _
  by_cases honline : w.directory.entries.find? ⟨home, database⟩ = some .online
  · have hpeers : (Check.onlinePeers home database).Runs e w []
        (.ok (peersOf home w.directory database)) w := Check.runs_onlinePeers hopen database
    cases hserve : peersOf home w.directory database with
    | nil =>
      have hidle : holdsRound home w.directory database = false := by simp [holdsRound, hserve]
      refine ⟨_, rfl, rfl, hstatus.after_quiet ?_,
        ⟨.idle hidle, fun hholds => absurd (hidle.symm.trans hholds) Bool.false_ne_true⟩, hreach,
        hopen⟩
      rw [if_pos honline]
      rw [hserve] at hpeers
      exact hpeers.after_quiet (runs_pure [] w)
    | cons peer others =>
      have hholds : holdsRound home w.directory database = true := by
        simp [holdsRound, honline, hserve]
      obtain ⟨acts, reply, w', hround, hheld, hbeats, hafter⟩ := runs_round home installer hspares
        policy database (nodup_peersOf hreach.nodup_members) hreach hopen
      refine ⟨⟨database, w, acts, reply, w'⟩, rfl, rfl, hstatus.after_quiet ?_,
        ⟨.held hholds hheld, fun _ => hbeats⟩, hafter⟩
      rw [if_pos honline]
      rw [hserve] at hpeers hround
      exact hpeers.after_quiet hround
  · have hidle : holdsRound home w.directory database = false := by simp [holdsRound, honline]
    refine ⟨_, rfl, rfl, hstatus.after_quiet ?_,
      ⟨.idle hidle, fun hholds => absurd (hidle.symm.trans hholds) Bool.false_ne_true⟩, hreach,
      hopen⟩
    rw [if_neg honline]
    exact runs_pure [] w

end Runs

/-- Two transports do the same and give the same answers, but may differ in how they say that nobody
answered. -/
def SaysTheSame (transport transport' : Transport (World ρ)) : Prop :=
  ∀ database peers timeoutMs w,
    let x := (transport database peers timeoutMs).finish 0 w
    let x' := (transport' database peers timeoutMs).finish 0 w
    x'.2 = x.2 ∧ (x'.1.1 = x.1.1 ∨ Unanswered x.1.1 ∧ Unanswered x'.1.1)

section Forms

/-! ### The two forms in which nobody answers -/

/-- In either surroundings a check makes the same requests, ends in the same way and leaves the same
state. -/
def Alike {σ α : Type} (e e' : Surroundings σ) (c : Check α) : Prop :=
  ∀ s, (ExceptT.run c).outcome e' s = (ExceptT.run c).outcome e s ∧
    ((ExceptT.run c).trace e' s).map Exchange.request =
      ((ExceptT.run c).trace e s).map Exchange.request

variable {σ α β : Type} {e e' : Surroundings σ}

theorem Alike.pure (a : α) : Alike e e' (Pure.pure a : Check α) := fun _ => ⟨rfl, rfl⟩

theorem Alike.bind {c : Check α} {f : α → Check β} (hc : Alike e e' c)
    (hf : ∀ a, Alike e e' (f a)) : Alike e e' (c >>= f) := by
  intro s
  obtain ⟨hend, hrequests⟩ := hc s
  rw [ExceptT.run_bind, Program.outcome_bind, Program.outcome_bind, Program.trace_bind,
    Program.trace_bind, List.map_append, List.map_append, hend, hrequests]
  cases (c.run.outcome e s).1 with
  | error a => exact ⟨rfl, rfl⟩
  | ok a =>
    obtain ⟨hend', hrequests'⟩ := hf a (c.run.outcome e s).2
    exact ⟨hend', congrArg _ hrequests'⟩

theorem Alike.gather {f : α → Check (List β)} (hf : ∀ a, Alike e e' (f a)) :
    ∀ l, Alike e e' (Check.gather f l)
  | [] => .pure []
  | a :: rest => .bind (hf a) fun _ => .bind (.gather hf rest) fun _ => .pure _

/-- A check that asks only for what is answered alike goes alike. -/
theorem Alike.of_asks {P : Request → Prop} (hsame : ∀ r, P r → e'.answer r = e.answer r)
    {c : Check α} (hc : c.Asks P) : Alike e e' c := by
  have hprogram : ∀ {p : Program (Reply α)}, p.Meets (.only P) (fun _ _ => True) () → ∀ s,
      p.outcome e' s = p.outcome e s ∧
        (p.trace e' s).map Exchange.request = (p.trace e s).map Exchange.request := by
    intro p
    induction p with
    | done a => exact fun _ _ => ⟨rfl, rfl⟩
    | ask r next ih =>
      intro hp s
      obtain ⟨hr, hnext⟩ := hp (e.exchange r s).answer () trivial
      obtain ⟨hend, hrequests⟩ := ih _ hnext (e.exchange r s).after
      show (next ((e'.answer r).finish 0 s).1.1).outcome e' ((e'.answer r).finish 0 s).2 = _ ∧
        r :: ((next ((e'.answer r).finish 0 s).1.1).trace e' ((e'.answer r).finish 0 s).2).map
          Exchange.request = _
      rw [hsame r hr]
      exact ⟨hend, congrArg _ hrequests⟩
  exact hprogram (Program.Meets.mono hc fun _ _ _ => trivial)

end Forms

section Transports

/-- Every request but a heartbeat is answered alike. -/
theorem answer_eq (home : Node) (installer : Installer (World ρ))
    (transport transport' : Transport (World ρ)) {r : Request}
    (hr : ∀ database peers timeoutMs, r ≠ .heartbeat database peers timeoutMs) :
    (World.surroundings home installer transport').answer r =
      (World.surroundings home installer transport).answer r := by
  cases r with
  | heartbeat database peers timeoutMs => exact absurd rfl (hr database peers timeoutMs)
  | homeStatus | databases | status | setStatus | onlineNodes | install | note => rfl

theorem judgeRound_alike {peers : List Node} (responses? : Option Responses) :
    Alike (World.surroundings home installer transport)
      (World.surroundings home installer transport')
      (judgeRound home policy database peers responses?) := by
  refine .of_asks (fun r => answer_eq home installer transport transport' (r := r)) ?_
  cases responses? with
  | none => simp [judgeRound]
  | some responses =>
    refine .bind (by simp) fun _ => .gather fun peer => .bind (.bind (by simp) fun status => ?_)
      fun _ => .pure _
    split
    · split <;> simp
    · exact .pure _

/-- After a heartbeat a check goes on alike if it does not tell the two forms apart. -/
theorem heartbeat_alike {α : Type} (hsame : SaysTheSame transport transport') {peers : List Node}
    {timeoutMs : Nat} {k : Reply Responses → Check α}
    (hk : ∀ x, Alike (World.surroundings home installer transport)
      (World.surroundings home installer transport') (k x))
    (hforms : ∀ x y, Unanswered x → Unanswered y → k x = k y) :
    Alike (World.surroundings home installer transport)
      (World.surroundings home installer transport')
      (Check.heartbeat database peers timeoutMs >>= k) := by
  intro w
  let x := (transport database peers timeoutMs).finish 0 w
  let x' := (transport' database peers timeoutMs).finish 0 w
  obtain ⟨hafter, hanswer⟩ : x'.2 = x.2 ∧ (x'.1.1 = x.1.1 ∨ Unanswered x.1.1 ∧ Unanswered x'.1.1) :=
    hsame database peers timeoutMs w
  have hnext : k x'.1.1 = k x.1.1 := by
    obtain heq | ⟨hnone, hnone'⟩ := hanswer
    · rw [heq]
    · exact hforms _ _ hnone' hnone
  show (k x'.1.1).run.outcome (World.surroundings home installer transport') x'.2 = _ ∧
    .heartbeat database peers timeoutMs :: ((k x'.1.1).run.trace
      (World.surroundings home installer transport') x'.2).map Exchange.request = _
  rw [hafter, hnext]
  obtain ⟨hend, hrequests⟩ := hk x.1.1 x.2
  exact ⟨hend, congrArg _ hrequests⟩

/-- A round goes alike, in whichever form the transport says that nobody answered. -/
theorem round_alike (hsame : SaysTheSame transport transport') {peers : List Node} :
    Alike (World.surroundings home installer transport)
      (World.surroundings home installer transport') (round home policy database peers) := by
  refine .bind (fun _ => ⟨rfl, rfl⟩) fun _ => heartbeat_alike hsame (fun reply => ?_) ?_
  · exact .bind (fun _ => ⟨rfl, rfl⟩) judgeRound_alike
  · intro x y hx hy
    rw [hx.answers?_eq, hy.answers?_eq]

/-- **The stall check goes alike**, in whichever form the transport says that nobody answered. -/
theorem check_alike (home : Node) (installer : Installer (World ρ)) (policy : DemotionPolicy)
    (hsame : SaysTheSame transport transport') :
    Alike (World.surroundings home installer transport)
      (World.surroundings home installer transport') (check home policy) := by
  refine .bind (fun _ => ⟨rfl, rfl⟩) fun standing => ?_
  split
  · refine .bind (fun _ => ⟨rfl, rfl⟩) fun _ => .gather (fun database => ?_) _
    refine .bind (fun _ => ⟨rfl, rfl⟩) fun status => ?_
    split
    · refine .bind (.bind (fun _ => ⟨rfl, rfl⟩) fun _ => .pure _) fun peers => ?_
      split
      · exact .pure _
      · exact round_alike hsame
    · exact .pure _
  · exact .bind (fun _ => ⟨rfl, rfl⟩) fun _ => .pure _

end Transports

/-- **What the stall check decides.** -/
theorem stall_rounds (home : Node) (installer : Installer (World ρ))
    (hspares : transport.SparesDirectory) (policy : DemotionPolicy) (w : World ρ)
    (hreach : w.directory.Reachable home) (hopen : w.directory.closed = false)
    (honline : w.directory.members.find? home = some .online) :
    let e := World.surroundings home installer transport
    let x := ((check home policy).run.within e).finish 0 w
    (∃ visits : List (Visit (World ρ) Database PeerDemotion),
      Tour w.directory.hosted w visits x.1.1 x.2 ∧
      (check home policy).run.acts e w = visits.flatMap Visit.acts ∧
      ∀ v ∈ visits, Visited home policy v) ∧
    ∀ transport', SaysTheSame transport transport' →
      let e' := World.surroundings home installer transport'
      let x' := ((check home policy).run.within e').finish 0 w
      (x'.1.1, x'.2) = (x.1.1, x.2) ∧
        ((check home policy).run.trace e' w).map Exchange.request =
          ((check home policy).run.trace e w).map Exchange.request := by
  intro e x
  obtain ⟨visits, reply, w', hruns, htour, hvisits⟩ := Check.gather_tour
    (runs_checkDatabase home installer hspares policy) w.directory.hosted ⟨hreach, hopen⟩
  have hstanding : Check.homeStatus.Runs e w [] (.ok .online) w :=
    Check.runs_homeStatus hopen hreach.home_eq honline
  have hcheck : (check home policy).Runs e w (visits.flatMap Visit.acts) reply w' :=
    hstanding.after_quiet ((Check.runs_databases hopen).after_quiet hruns)
  have hx : (x.1.1, x.2) = (reply, w') := (Program.finish_within _ 0 w).trans hcheck.outcome_eq
  obtain ⟨hreply, hafter⟩ := Prod.mk.inj hx
  refine ⟨⟨visits, by rwa [hreply, hafter], hcheck.acts_eq, fun v hv => (hvisits v hv).1⟩, ?_⟩
  intro transport' hsame e' x'
  obtain ⟨hend, hrequests⟩ := check_alike home installer policy hsame w
  exact ⟨((Program.finish_within _ 0 w).trans hend).trans (Program.finish_within _ 0 w).symm,
    hrequests⟩

/-- Nobody answers about one database.  About the others one peer answers, and a node that was not
asked, and meanwhile another peer's copy becomes a backup. -/
def halfDeaf (nobody : Reply Responses) : Transport (World Unit) := fun database _ _ =>
  if database = "Orders" then pure nobody
  else do
    Process.modify fun w => { w with directory :=
      (w.directory.performAll [.setStatus ⟨"n2", "Users"⟩ .backup]).2 }
    return .ok (.ofList [("n3", ⟨"n3", database, 1⟩), ("n9", ⟨"n9", database, 1⟩)])

theorem halfDeaf_spares (nobody : Reply Responses) : (halfDeaf nobody).SparesDirectory := by
  intro database peers timeoutMs w
  unfold halfDeaf
  split
  · exact ⟨.refl _, fun hopen => hopen⟩
  · refine ⟨⟨[.setStatus ⟨"n2", "Users"⟩ .backup], rfl⟩, fun hopen => ?_⟩
    show ((w.directory.performAll [.setStatus ⟨"n2", "Users"⟩ .backup]).2).closed = false
    simp only [Directory.performAll, Directory.perform, Directory.setStatus,
      Directory.whileOpen_of_open hopen]
    exact hopen

theorem halfDeaf_saysTheSame {nobody nobody' : Reply Responses} (h : Unanswered nobody)
    (h' : Unanswered nobody') : SaysTheSame (halfDeaf nobody) (halfDeaf nobody') := by
  intro database peers timeoutMs w
  unfold halfDeaf
  split
  · exact ⟨rfl, .inr ⟨h, h'⟩⟩
  · exact ⟨rfl, .inl rfl⟩

/-- A node with three databases and three peers that serve two of them. -/
def threePeers : World Unit where
  directory := ((Directory.create "n1" .online).performAll [.enroll "n2" .online,
    .enroll "n3" .online, .enroll "n4" .online, .host "Orders", .host "Users", .host "Stock",
    .setStatus ⟨"n1", "Orders"⟩ .online, .setStatus ⟨"n2", "Orders"⟩ .online,
    .setStatus ⟨"n1", "Users"⟩ .online, .setStatus ⟨"n2", "Users"⟩ .online,
    .setStatus ⟨"n3", "Users"⟩ .online, .setStatus ⟨"n4", "Users"⟩ .online,
    .setStatus ⟨"n1", "Stock"⟩ .offline]).2
  own := ()

/-- Only the second database has a round that somebody answers, and of the two silent peers one has
gone meanwhile. -/
theorem stall_rounds_halfDeaf :
    let policy : DemotionPolicy := ⟨true, 200⟩
    let e nobody := World.surroundings "n1" (fun _ => pure (.ok true)) (halfDeaf nobody)
    let x nobody := ((check "n1" policy).run.within (e nobody)).finish 0 threePeers
    let silence := Except.ok Table.empty
    let failure := Except.error (.failure (.allUnreachable "Stock"))
    (∃ visits : List (Visit (World Unit) Database PeerDemotion),
      Tour ["Orders", "Users", "Stock"] threePeers visits
        (.ok [⟨"Users", "n2", .notOnline⟩, ⟨"Users", "n4", .demoted⟩]) (x silence).2 ∧
      ∀ v ∈ visits, Visited "n1" policy v) ∧
    ((x failure).1.1, (x failure).2) = ((x silence).1.1, (x silence).2) := by
  intro policy e x silence failure
  have hreply : (x silence).1.1 =
      .ok [⟨"Users", "n2", .notOnline⟩, ⟨"Users", "n4", .demoted⟩] := by decide
  obtain ⟨⟨visits, htour, -, hvisits⟩, hforms⟩ := stall_rounds "n1" (fun _ => pure (.ok true))
    (halfDeaf_spares silence) policy threePeers ⟨.online, _, rfl⟩ rfl rfl
  obtain ⟨hend, -⟩ := hforms (halfDeaf failure)
    (halfDeaf_saysTheSame (.empty rfl) (.allUnreachable _))
  dsimp only [x, e] at hreply ⊢
  rw [hreply] at htour
  exact ⟨⟨visits, htour, hvisits⟩, hend⟩

end Stall

end Upkeep
