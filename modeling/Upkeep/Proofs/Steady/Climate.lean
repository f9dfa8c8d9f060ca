import Upkeep.Proofs.Directory.Closing
import Upkeep.Proofs.Program.Terms

/-!
# Steady surroundings

A `Climate` is what stays the same around the cycles of a node on which nobody else works: what
becomes of an install, for each source, and who answers the heartbeat of each database.
Surroundings are `Steady` if they keep to a climate and leave the directory alone.

A `Scene` is what is followed of a run in steady surroundings: the directory, and the requests that
mark what was done (`Request.isMark`).

* `Program.Meets.steady` : what is judged by the terms of a climate holds of a run in steady
  surroundings.
* `Program.steady_status`, … : on an open directory each call is answered from what is in it.
-/

namespace Upkeep

variable {σ α : Type}

/-- What stays the same around the cycles of a node. -/
structure Climate where
  /-- What becomes of an install from a source. -/
  installs : InstallSource → Reply Bool
  /-- How the heartbeats of a database fail, or else which peers answer them. -/
  rounds : Database → Except Abort (Node → Bool)

namespace Climate

/-- What may be answered to a heartbeat: a fixed failure, or the peers that were asked and answer.
If there are none, nobody can be reached or there are no answers. -/
def Round (c : Climate) (database : Database) (peers : List Node) (x : Reply Responses) : Prop :=
  match c.rounds database with
  | .error a => x = .error a
  | .ok responds =>
    if peers.any responds then
      ∃ responses, x = .ok responses ∧
        ∀ peer, responses.contains peer = true ↔ peer ∈ peers ∧ responds peer = true
    else (∃ other, x = .error (.failure (.allUnreachable other))) ∨
      ∃ responses, x = .ok responses ∧ responses.isEmpty = true

/-- What may be answered to a request, and what becomes of the directory. -/
def Answers (c : Climate) (d : Directory) : (r : Request) → r.Answer → Directory → Prop
  | .install source, x, d' => x = c.installs source ∧ d' = d
  | .heartbeat database peers _, x, d' => c.Round database peers x ∧ d' = d
  | .note _, _, d' => d' = d
  | .homeStatus, x, d' => d.Replies .homeStatus x d'
  | .databases, x, d' => d.Replies .databases x d'
  | .status key, x, d' => d.Replies (.status key) x d'
  | .setStatus key s, x, d' => d.Replies (.setStatus key s) x d'
  | .onlineNodes database, x, d' => d.Replies (.onlineNodes database) x d'

end Climate

/-- The surroundings keep to the climate and leave the directory alone, in every state that can
arise. -/
structure Surroundings.Steady (e : Surroundings σ) (dir : σ → Directory) (I : σ → Prop)
    (c : Climate) : Prop where
  /-- Requests are answered as the climate says. -/
  answers : ∀ r s, I s → c.Answers (dir s) r (e.exchange r s).answer (dir (e.exchange r s).after)
  /-- The state after an exchange is one that can arise. -/
  keeps : ∀ r s, I s → I (e.exchange r s).after

/-- Whether a request marks what a run does: it writes a status, asks for an install, or puts a
suppressed demotion or the failure of a check on record. -/
def Request.isMark : Request → Bool
  | .setStatus _ _ | .install _ => true
  | .note (.report (.demotionSuppressed _ _ _ _)) | .note (.count (.checkErrors _)) => true
  | _ => false

/-- The requests that mark what a run did. -/
def marks (trace : List (Exchange σ)) : List Request :=
  (trace.map Exchange.request).filter Request.isMark

/-- What is followed of a run in steady surroundings. -/
structure Scene where
  /-- The directory. -/
  directory : Directory
  /-- The requests that mark what was done. -/
  marks : List Request := []

namespace Scene

variable {b : Scene}

/-- A request is made that leaves the directory as it is. -/
def mark (b : Scene) (r : Request) : Scene :=
  { b with marks := b.marks ++ [r].filter Request.isMark }

theorem mark_of_not {r : Request} (h : r.isMark = false) : b.mark r = b := by
  simp [mark, h]

/-- Goes on with what is made of the directory. -/
def next (b : Scene) (f : Directory → Scene) : Scene :=
  ⟨(f b.directory).directory, b.marks ++ (f b.directory).marks⟩

theorem next_next (b : Scene) (f g : Directory → Scene) :
    (b.next f).next g = b.next fun d => (f d).next g := by
  simp [next]

@[simp] theorem next_still (b : Scene) : b.next (fun d => ⟨d, []⟩) = b := by
  simp [next]

end Scene

/-- Requests are answered as the climate says, and any request may be made. -/
def Terms.steady (c : Climate) : Terms Scene where
  answers b r x b' := c.Answers b.directory r x b'.directory ∧ b'.marks = (b.mark r).marks
  allows _ _ _ := True

/-- **What is judged by the terms of a climate holds of a run in steady surroundings.** -/
theorem Program.Meets.steady {e : Surroundings σ} {dir : σ → Directory} {I : σ → Prop} {c : Climate}
    (he : e.Steady dir I c) {Q : α → Scene → Prop} {p : Program α} {s : σ} {ms : List Request}
    (hp : p.Meets (.steady c) Q ⟨dir s, ms⟩) (hs : I s) :
    Q (p.outcome e s).1 ⟨dir (p.outcome e s).2, ms ++ Upkeep.marks (p.trace e s)⟩ ∧
      I (p.outcome e s).2 := by
  induction p generalizing s ms with
  | done a =>
    have hQ : Q a ⟨dir s, ms⟩ := hp
    exact ⟨by simpa [outcome, Upkeep.marks] using hQ, hs⟩
  | ask r next ih =>
    obtain ⟨-, hnext⟩ := hp (e.exchange r s).answer ⟨dir (e.exchange r s).after,
      ms ++ [r].filter Request.isMark⟩ ⟨he.answers r s hs, rfl⟩
    have hrest := ih _ hnext (he.keeps r s hs)
    have htrace : Upkeep.marks ((ask r next).trace e s) = [r].filter Request.isMark ++
        Upkeep.marks ((next (e.exchange r s).answer).trace e (e.exchange r s).after) := by
      rw [trace_ask, Upkeep.marks, List.map_cons, exchange_request, ← List.singleton_append,
        List.filter_append]
      rfl
    rw [outcome_ask, htrace, ← List.append_assoc]
    exact hrest

/-- The directory once a status was written. -/
def Directory.write (d : Directory) (key : CopyKey) (s : CopyStatus) : Directory :=
  { d with entries := d.entries.put key s, writes := d.writes + 1 }

namespace Program

/-! ### The requests of a check on an open directory -/

variable {c : Climate} {b b' : Scene}

theorem steady_mark {r : Request} {x : r.Answer} (h : (Terms.steady c).answers b r x b') :
    b' = { b.mark r with directory := b'.directory } := by
  obtain ⟨directory, ms⟩ := b'
  exact congrArg (Scene.mk directory) h.2

/-- A request that is no mark and leaves the directory as it is leaves the scene as it is. -/
theorem steady_same {r : Request} {x : r.Answer} (h : (Terms.steady c).answers b r x b')
    (hr : r.isMark = false) (hd : b'.directory = b.directory) : b' = b := by
  rw [steady_mark h, hd, Scene.mark_of_not hr]

theorem steady_homeStatus (hopen : b.directory.closed = false) :
    Program.Meets (.steady c) (fun reply b' =>
      reply = .ok ((b.directory.members.find? b.directory.home).getD .offline) ∧ b' = b)
      (ExceptT.run Check.homeStatus) b := by
  intro x b' h
  obtain ⟨hx, hd⟩ := h.1
  refine ⟨trivial, ?_, steady_same h rfl hd⟩
  rw [hx, Directory.homeStatus, Directory.whileOpen_of_open hopen]
  rfl

theorem steady_databases (hopen : b.directory.closed = false) :
    Program.Meets (.steady c) (fun reply b' => reply = .ok b.directory.hosted ∧ b' = b)
      (ExceptT.run Check.databases) b := by
  intro x b' h
  obtain ⟨hx, hd⟩ := h.1
  refine ⟨trivial, ?_, steady_same h rfl hd⟩
  rw [hx, Directory.databases, Directory.whileOpen_of_open hopen]
  rfl

theorem steady_status (hopen : b.directory.closed = false) (key : CopyKey) :
    Program.Meets (.steady c) (fun reply b' =>
      reply = .ok (b.directory.entries.find? key) ∧ b' = b) (ExceptT.run (Check.status key)) b := by
  intro x b' h
  obtain ⟨hx, hd⟩ := h.1
  refine ⟨trivial, ?_, steady_same h rfl hd⟩
  rw [hx, Directory.status, Directory.whileOpen_of_open hopen]
  rfl

theorem steady_onlinePeers (hopen : b.directory.closed = false) (home : Node)
    (database : Database) :
    Program.Meets (.steady c) (fun reply b' =>
      reply = .ok (Directory.withoutHome home (b.directory.serving database)) ∧ b' = b)
      (ExceptT.run (Check.onlinePeers home database)) b := by
  intro x b' h
  obtain ⟨hx, hd⟩ := h.1
  rw [hx, Directory.onlineNodes, Directory.whileOpen_of_open hopen]
  exact ⟨trivial, rfl, steady_same h rfl hd⟩

theorem steady_setStatus (hopen : b.directory.closed = false) (key : CopyKey) (s : CopyStatus) :
    Program.Meets (.steady c) (fun reply b' => reply = .ok () ∧
        b' = b.next fun d => ⟨d.write key s, [.setStatus key s]⟩)
      (ExceptT.run (Check.setStatus key s)) b := by
  intro x b' h
  have hset : b.directory.setStatus key s = .ok (b.directory.write key s) :=
    Directory.whileOpen_of_open hopen _
  refine ⟨trivial, ?_⟩
  obtain ⟨hset', rfl⟩ | ⟨_, hset', -, -⟩ := h.1
  · refine ⟨rfl, ?_⟩
    rw [steady_mark h, Except.ok.inj (hset'.symm.trans hset)]
    rfl
  · exact nomatch hset.symm.trans hset'

theorem steady_install (source : InstallSource) :
    Program.Meets (.steady c) (fun reply b' =>
        reply = .ok (c.installs source) ∧ b' = b.mark (.install source))
      (ExceptT.run (Check.install source)) b := by
  intro x b' h
  obtain ⟨hx, hd⟩ := h.1
  refine ⟨trivial, congrArg Except.ok hx, ?_⟩
  rw [steady_mark h, hd]
  rfl

theorem steady_heartbeat (database : Database) (peers : List Node) (timeoutMs : Nat) :
    Program.Meets (.steady c) (fun reply b' =>
        ∃ x, reply = .ok x ∧ c.Round database peers x ∧ b' = b)
      (ExceptT.run (Check.heartbeat database peers timeoutMs)) b :=
  fun x _ h => ⟨trivial, x, rfl, h.1.1, steady_same h rfl h.1.2⟩

theorem steady_note (n : Note) :
    Program.Meets (.steady c) (fun _ b' => b' = b.mark (.note n)) (Program.call (.note n)) b := by
  intro x b' h
  refine ⟨trivial, ?_⟩
  have hd : b'.directory = b.directory := h.1
  have hmark : b' = { b.mark (.note n) with directory := b'.directory } := steady_mark h
  rw [hmark, hd]
  rfl

theorem steady_report {r : Report} (hr : (Request.note (.report r)).isMark = false) :
    Program.Meets (.steady c) (fun reply b' => reply = .ok () ∧ b' = b)
      (ExceptT.run (Check.report r)) b :=
  fun _ _ h => ⟨trivial, rfl, steady_same h hr h.1⟩

theorem steady_count {counter : Counter} (hc : (Request.note (.count counter)).isMark = false) :
    Program.Meets (.steady c) (fun reply b' => reply = .ok () ∧ b' = b)
      (ExceptT.run (Check.count counter)) b :=
  fun _ _ h => ⟨trivial, rfl, steady_same h hc h.1⟩

/-- The report of a suppressed demotion is a mark. -/
theorem steady_suppression (home peer : Node) (database : Database) (timeoutMs : Nat) :
    let r := Report.demotionSuppressed home peer database timeoutMs
    Program.Meets (.steady c) (fun reply b' => reply = .ok () ∧ b' = b.mark (.note (.report r)))
      (ExceptT.run (Check.report r)) b :=
  fun x b' h => ⟨trivial, rfl, (steady_note (.report _) x b' h).2⟩

end Program

/-- **A world is steady** if its installer and its transport keep to the climate and leave its
directory alone, whenever `J` holds of what they keep for themselves. -/
theorem World.steady {ρ : Type} {home : Node} {installer : Installer (World ρ)}
    {transport : Transport (World ρ)} {J : ρ → Prop} {c : Climate}
    (hinstaller : ∀ source (w : World ρ), J w.own →
      ((installer source).finish 0 w).1.1 = c.installs source ∧
        ((installer source).finish 0 w).2.directory = w.directory ∧
        J ((installer source).finish 0 w).2.own)
    (htransport : ∀ database peers timeoutMs (w : World ρ), J w.own →
      c.Round database peers ((transport database peers timeoutMs).finish 0 w).1.1 ∧
        ((transport database peers timeoutMs).finish 0 w).2.directory = w.directory ∧
        J ((transport database peers timeoutMs).finish 0 w).2.own) :
    (surroundings home installer transport).Steady World.directory (fun w => J w.own) c where
  answers r w hw := by
    cases r with
    | homeStatus | databases | status | onlineNodes => exact ⟨rfl, rfl⟩
    | setStatus key s =>
      simp only [Surroundings.exchange, Surroundings.answer, Process.update, Process.finish,
        surroundings, view, setStatus, Climate.Answers, Directory.Replies]
      cases w.directory.setStatus key s with
      | ok d => exact .inl ⟨rfl, rfl⟩
      | error e => exact .inr ⟨e, rfl, rfl, rfl⟩
    | install source => exact ⟨(hinstaller source w hw).1, (hinstaller source w hw).2.1⟩
    | heartbeat database peers timeoutMs =>
      exact ⟨(htransport database peers timeoutMs w hw).1,
        (htransport database peers timeoutMs w hw).2.1⟩
    | note n => rfl
  keeps r w hw := by
    cases r with
    | homeStatus | databases | status | onlineNodes | note => exact hw
    | setStatus key s =>
      simp only [Surroundings.exchange, Surroundings.answer, Process.update, Process.finish,
        surroundings, view, setStatus]
      split <;> exact hw
    | install source => exact (hinstaller source w hw).2.2
    | heartbeat database peers timeoutMs => exact (htransport database peers timeoutMs w hw).2.2

end Upkeep
