import Upkeep.Proofs.Program.History
import Upkeep.Proofs.Steady.Climate

/-!
# How a check goes through a list

A check that goes through a list takes its members one after another, each on the state that the one
before it left, up to the first that fails.  A `Visit` is the turn of one member: the state in which
it begins, what is done, how it ends, and the state that it leaves.  A `Tour` is a list of visits
that follow one another.

* `Check.Runs` : what a check that runs alone does, how it ends and what it leaves.
* `Check.Runs.gather_concat` : after a part of a list a check takes the next member.
* `Check.gather_tour` : **a check that goes through a list makes a tour**.
* `Check.runs_status`, … : the requests of a check in a world whose directory is open.
-/

namespace Upkeep

variable {σ α β γ : Type}

/-- Whether a request does something: it writes a status, or asks for an install or a heartbeat. -/
def Request.isAct : Request → Bool
  | .setStatus _ _ | .install _ | .heartbeat _ _ _ => true
  | .homeStatus | .databases | .status _ | .onlineNodes _ | .note _ => false

/-- What a program does that runs alone: the exchanges of its trace that do something. -/
def Program.acts (e : Surroundings σ) (p : Program α) (s : σ) : List (Exchange σ) :=
  (p.trace e s).filter fun x => x.request.isAct

theorem Program.acts_bind {e : Surroundings σ} (p : Program α) (f : α → Program β) (s : σ) :
    (p >>= f).acts e s = p.acts e s ++ (f (p.outcome e s).1).acts e (p.outcome e s).2 := by
  simp only [acts, trace_bind, List.filter_append]

/-- From a state on a check that runs alone does these acts, ends so, and leaves this state. -/
structure Check.Runs (e : Surroundings σ) (c : Check α) (s : σ) (acts : List (Exchange σ))
    (reply : Reply α) (s' : σ) : Prop where
  /-- What it does. -/
  acts_eq : (ExceptT.run c).acts e s = acts
  /-- How it ends, and what it leaves. -/
  outcome_eq : (ExceptT.run c).outcome e s = (reply, s')

namespace Check

variable {e : Surroundings σ} {c : Check α} {f : α → Check β} {s s' s'' : σ}
  {acts acts' : List (Exchange σ)}

theorem runs_pure (a : α) (s : σ) : (pure a : Check α).Runs e s [] (.ok a) s := ⟨rfl, rfl⟩

/-- After a request that did not fail a check goes on. -/
theorem Runs.bind {a : α} {reply : Reply β} (h : c.Runs e s acts (.ok a) s')
    (hf : (f a).Runs e s' acts' reply s'') : (c >>= f).Runs e s (acts ++ acts') reply s'' := by
  constructor
  · rw [ExceptT.run_bind, Program.acts_bind, h.outcome_eq, h.acts_eq]
    exact congrArg (acts ++ ·) hf.acts_eq
  · rw [ExceptT.run_bind, Program.outcome_bind, h.outcome_eq]
    exact hf.outcome_eq

/-- A request that failed ends a check. -/
theorem Runs.bind_error {x : Abort} (h : c.Runs e s acts (.error x) s') :
    (c >>= f).Runs e s acts (.error x) s' := by
  constructor
  · rw [ExceptT.run_bind, Program.acts_bind, h.outcome_eq, h.acts_eq]
    exact List.append_nil acts
  · rw [ExceptT.run_bind, Program.outcome_bind, h.outcome_eq]
    rfl

/-- A request that does nothing does not show among the acts. -/
theorem Runs.after_quiet {a : α} {reply : Reply β} (h : c.Runs e s [] (.ok a) s')
    (hf : (f a).Runs e s' acts reply s'') : (c >>= f).Runs e s acts reply s'' := h.bind hf

/-- The value of a check may be tidied up. -/
theorem Runs.map {g : α → β} {reply : Reply α} (h : c.Runs e s acts reply s') :
    (c >>= fun a => Pure.pure (g a)).Runs e s acts (reply.map g) s' := by
  cases reply with
  | ok a => simpa [Except.map] using h.bind (f := fun a => Pure.pure (g a)) (runs_pure (g a) s')
  | error x => exact h.bind_error

section Gather

variable {f : α → Check (List β)} {l : List α}

/-- A check that goes through a list goes through a first part of it, and then through the rest. -/
theorem gather_append (f : α → Check (List β)) (l l' : List α) :
    gather f (l ++ l') = (do
      let found ← gather f l
      let later ← gather f l'
      return found ++ later) := by
  induction l with
  | nil => simp [gather]
  | cons a l ih =>
    simp only [List.cons_append, gather, ih, bind_assoc, pure_bind, List.append_assoc]

/-- After a part of a list a check takes the next member. -/
theorem Runs.gather_concat {found : List β} {a : α} {reply : Reply (List β)}
    (h : (gather f l).Runs e s acts (.ok found) s') (hf : (f a).Runs e s' acts' reply s'') :
    (gather f (l ++ [a])).Runs e s (acts ++ acts') (reply.map (found ++ ·)) s'' := by
  have hone : gather f [a] = f a := by simp [gather]
  rw [gather_append, hone]
  exact h.bind hf.map

/-- A check that failed in a part of a list goes no further. -/
theorem Runs.gather_error {x : Abort} (h : (gather f l).Runs e s acts (.error x) s')
    (l' : List α) : (gather f (l ++ l')).Runs e s acts (.error x) s' := by
  rw [gather_append]
  exact h.bind_error

end Gather

end Check

/-- The turn of one member of a list in a check. -/
structure Visit (σ α β : Type) where
  /-- The member. -/
  item : α
  /-- The state in which the turn begins. -/
  before : σ
  /-- What is done. -/
  acts : List (Exchange σ)
  /-- How the turn ends. -/
  reply : Reply (List β)
  /-- The state that it leaves. -/
  after : σ

/-- What a visit found; one that failed found nothing. -/
def Visit.found (v : Visit σ α β) : List β :=
  match v.reply with
  | .ok found => found
  | .error _ => []

/-- Visits to the members of a list follow one another from a state on, up to the first that fails:
how the tour ends, and the state that it leaves. -/
inductive Tour : List α → σ → List (Visit σ α β) → Reply (List β) → σ → Prop
  /-- Every member was visited. -/
  | ends (s : σ) : Tour [] s [] (.ok []) s
  /-- A visit fails, and the members after it are not visited. -/
  | breaks {v : Visit σ α β} {x : Abort} (rest : List α) (h : v.reply = .error x) :
      Tour (v.item :: rest) v.before [v] (.error x) v.after
  /-- A visit does not fail, and the next begins in the state that it leaves. -/
  | goesOn {v : Visit σ α β} {found : List β} {rest : List α} {visits : List (Visit σ α β)}
      {reply : Reply (List β)} {s' : σ} (h : v.reply = .ok found)
      (hrest : Tour rest v.after visits reply s') :
      Tour (v.item :: rest) v.before (v :: visits) (reply.map (found ++ ·)) s'

/-- **A check that goes through a list makes a tour**, and does what is done in its visits.  What is
shown of the turn of a member holds of every visit, if the turn keeps the invariant under which it
is shown. -/
theorem Check.gather_tour {e : Surroundings σ} {f : α → Check (List β)} {I : σ → Prop}
    {P : Visit σ α β → Prop}
    (hturn : ∀ a s, I s → ∃ v : Visit σ α β, v.item = a ∧ v.before = s ∧
      (f a).Runs e s v.acts v.reply v.after ∧ P v ∧ I v.after)
    (l : List α) {s : σ} (hs : I s) :
    ∃ visits reply s', (Check.gather f l).Runs e s (visits.flatMap Visit.acts) reply s' ∧
      Tour l s visits reply s' ∧ ∀ v ∈ visits, P v := by
  induction l generalizing s with
  | nil => exact ⟨[], .ok [], s, runs_pure [] s, .ends s, nofun⟩
  | cons a rest ih =>
    obtain ⟨v, rfl, rfl, hv, hP, hafter⟩ := hturn a s hs
    cases hreply : v.reply with
    | error x =>
      rw [hreply] at hv
      have hfails : (Check.gather f (v.item :: rest)).Runs e v.before v.acts (.error x) v.after :=
        hv.bind_error
      exact ⟨[v], .error x, v.after, by simpa using hfails, .breaks rest hreply,
        List.forall_mem_singleton.2 hP⟩
    | ok found =>
      obtain ⟨visits, reply, s', hruns, htour, hvisits⟩ := ih hafter
      rw [hreply] at hv
      exact ⟨v :: visits, reply.map (found ++ ·), s', hv.bind hruns.map, .goesOn hreply htour,
        List.forall_mem_cons.2 ⟨hP, hvisits⟩⟩

namespace Tour

variable {l : List α} {s s' : σ} {visits : List (Visit σ α β)} {reply : Reply (List β)}

end Tour

namespace Check

variable {ρ : Type} {home : Node} {installer : Installer (World ρ)}
  {transport : Transport (World ρ)} {w : World ρ}

/-! ### The requests of a check in a world whose directory is open -/

/-- The home node is told how it stands; a node that is no member is offline. -/
theorem runs_standing (hopen : w.directory.closed = false) (hhome : w.directory.home = home) :
    homeStatus.Runs (World.surroundings home installer transport) w []
      (.ok ((w.directory.members.find? home).getD .offline)) w := by
  refine ⟨rfl, Prod.ext (show (World.read Directory.homeStatus w).1 = _ from ?_) rfl⟩
  rw [World.read, Directory.homeStatus, Directory.whileOpen_of_open hopen, hhome]
  rfl

theorem runs_homeStatus (hopen : w.directory.closed = false) (hhome : w.directory.home = home)
    {standing : MemberStatus} (hstanding : w.directory.members.find? home = some standing) :
    homeStatus.Runs (World.surroundings home installer transport) w [] (.ok standing) w := by
  have hread : (w.directory.members.find? home).getD .offline = standing := by
    rw [hstanding]
    rfl
  rw [← hread]
  exact runs_standing hopen hhome

theorem runs_databases (hopen : w.directory.closed = false) :
    databases.Runs (World.surroundings home installer transport) w []
      (.ok w.directory.hosted) w := by
  refine ⟨rfl, Prod.ext (show (World.read Directory.databases w).1 = _ from ?_) rfl⟩
  simp only [World.read, Directory.databases, Directory.whileOpen_of_open hopen]
  rfl

theorem runs_status (hopen : w.directory.closed = false) (key : CopyKey) :
    (status key).Runs (World.surroundings home installer transport) w []
      (.ok (w.directory.entries.find? key)) w := by
  refine ⟨rfl, Prod.ext (show (World.read (Directory.status · key) w).1 = _ from ?_) rfl⟩
  simp only [World.read, Directory.status, Directory.whileOpen_of_open hopen]
  rfl

theorem runs_onlinePeers (hopen : w.directory.closed = false) (database : Database) :
    (onlinePeers home database).Runs (World.surroundings home installer transport) w []
      (.ok (Directory.withoutHome home (w.directory.serving database))) w := by
  have hnodes : (onlineNodes database).Runs (World.surroundings home installer transport) w []
      (.ok (w.directory.serving database)) w := by
    refine ⟨rfl, Prod.ext (show (World.read (Directory.onlineNodes · database) w).1 = _ from ?_)
      rfl⟩
    simp only [World.read, Directory.onlineNodes, Directory.whileOpen_of_open hopen]
    rfl
  exact hnodes.map

/-- A status is written as it is asked for. -/
theorem runs_setStatus (home : Node) (installer : Installer (World ρ))
    (transport : Transport (World ρ)) {w : World ρ} (hopen : w.directory.closed = false)
    (key : CopyKey) (s : CopyStatus) :
    ∃ x : Exchange (World ρ), x.told = ⟨.setStatus key s, .ok ()⟩ ∧ x.before = w ∧
      x.after.directory = w.directory.write key s ∧
      (setStatus key s).Runs (World.surroundings home installer transport) w [x] (.ok ())
        x.after := by
  have hset : World.setStatus key s w =
      (.ok (), { w.report (.statusWritten key s) with directory := w.directory.write key s }) := by
    simp only [World.setStatus, Directory.setStatus, Directory.whileOpen_of_open hopen]
    rfl
  let e := World.surroundings home installer transport
  have hreply : ((e.answer (.setStatus key s)).finish 0 w).1.1 = .ok () := congrArg Prod.fst hset
  refine ⟨e.exchange (.setStatus key s) w, ?_, rfl, ?_, rfl, ?_⟩
  · rw [exchange_told]
    exact congrArg (Told.mk (.setStatus key s)) hreply
  · exact congrArg (fun x => x.2.directory) hset
  · exact Prod.ext hreply rfl

/-- An install is asked for, and whatever becomes of it the check goes on. -/
theorem runs_install {e : Surroundings σ} (source : InstallSource) (s : σ) :
    ∃ reply, (e.exchange (.install source) s).told = ⟨.install source, reply⟩ ∧
      (install source).Runs e s [e.exchange (.install source) s] (.ok reply)
        (e.exchange (.install source) s).after :=
  ⟨(e.exchange (.install source) s).answer, rfl, rfl, rfl⟩

/-- A heartbeat is sent, and whatever becomes of it the check goes on. -/
theorem runs_heartbeat {e : Surroundings σ} (database : Database) (peers : List Node)
    (timeoutMs : Nat) (s : σ) :
    ∃ reply, (e.exchange (.heartbeat database peers timeoutMs) s).told =
        ⟨.heartbeat database peers timeoutMs, reply⟩ ∧
      (heartbeat database peers timeoutMs).Runs e s
        [e.exchange (.heartbeat database peers timeoutMs) s] (.ok reply)
        (e.exchange (.heartbeat database peers timeoutMs) s).after :=
  ⟨(e.exchange (.heartbeat database peers timeoutMs) s).answer, rfl, rfl, rfl⟩

theorem runs_report {e : Surroundings σ} (r : Report) (s : σ) :
    (report r).Runs e s [] (.ok ()) (e.note (.report r) s) := ⟨rfl, rfl⟩

theorem runs_count {e : Surroundings σ} (c : Counter) (s : σ) :
    (count c).Runs e s [] (.ok ()) (e.note (.count c) s) := ⟨rfl, rfl⟩

end Check

end Upkeep
