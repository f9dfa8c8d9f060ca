import Upkeep.Proofs.Program.Terms

/-!
# Watching what is asked

A request leaves no mark on the state by which it could be told afterwards.  `Surroundings.watched`
are surroundings that write down every request as it is made and answer it as before.

* `Program.shadows_within` : watching changes nothing: a watched program and the program itself
  pause at the same points, end alike and leave the same state behind (`Process.Shadows.advance`).
* `Program.Meets.watched` : what a program may ask, whatever it is answered, is all that is found
  written down.
-/

namespace Upkeep

variable {σ α β : Type}

/-- A state, and the requests that were made on the way to it. -/
structure Watched (σ : Type) where
  /-- The state. -/
  now : σ
  /-- The requests, in order. -/
  asked : List Request := []

namespace Watched

/-- Writes a request down. -/
def ask (r : Request) (w : Watched σ) : Watched σ := ⟨w.now, w.asked ++ [r]⟩

/-- Writes a request down that is answered in one step. -/
def call (r : Request) (f : σ → α × σ) (w : Watched σ) : α × Watched σ :=
  ((f w.now).1, ⟨(f w.now).2, w.asked ++ [r]⟩)

/-- Only requests of a kind were written down. -/
def Grows (P : Request → Prop) (w w' : Watched σ) : Prop :=
  ∃ new, w'.asked = w.asked ++ new ∧ ∀ r ∈ new, P r

/-- The request was written down at most once, and the state changed as `G` admits, if at all. -/
def Follows (r : Request) (G : σ → σ → Prop) (w w' : Watched σ) : Prop :=
  (w'.now = w.now ∨ G w.now w'.now) ∧ (w'.asked = w.asked ∨ w'.asked = w.asked ++ [r])

variable {P : Request → Prop} {w w' : Watched σ}

theorem Grows.refl (w : Watched σ) : Grows P w w :=
  ⟨[], (List.append_nil _).symm, fun _ hr => nomatch hr⟩

theorem Grows.trans {w'' : Watched σ} (h : Grows P w w') (h' : Grows P w' w'') :
    Grows P w w'' := by
  obtain ⟨new, hnew, hP⟩ := h
  obtain ⟨new', hnew', hP'⟩ := h'
  refine ⟨new ++ new', ?_, ?_⟩
  · rw [hnew', hnew, List.append_assoc]
  · intro r hr
    exact (List.mem_append.1 hr).elim (hP r) (hP' r)

theorem Follows.grows {r : Request} {G : σ → σ → Prop} (h : Follows r G w w') (hr : P r) :
    Grows P w w' := by
  obtain hsame | hmore := h.2
  · exact ⟨[], by simpa using hsame, fun _ hr => nomatch hr⟩
  · exact ⟨[r], hmore, by simpa using hr⟩

theorem grows_of_steps (h : Relation.ReflTransGen (Grows P) w w') : Grows P w w' := by
  induction h with
  | refl => exact .refl w
  | tail _ hstep ih => exact ih.trans hstep

end Watched

namespace Process

/-- A process on the state alone, beside the requests. -/
def onNow : Process σ α → Process (Watched σ) α
  | done a => done a
  | look next => look fun w => (next w.now).onNow
  | become s next => look fun w => become ⟨s, w.asked⟩ next.onNow
  | pause ms next => pause ms next.onNow

/-- Seen without the requests, the first process does from `w` on what the second one does. -/
inductive Shadows : Watched σ → Process (Watched σ) α → Process σ α → Prop
  /-- Both end. -/
  | done (w : Watched σ) (a : α) : Shadows w (.done a) (.done a)
  /-- The first one looks. -/
  | looks {w : Watched σ} {next : Watched σ → Process (Watched σ) α} {q : Process σ α}
      (h : Shadows w (next w) q) : Shadows w (.look next) q
  /-- The second one looks. -/
  | sees {w : Watched σ} {p : Process (Watched σ) α} {next : σ → Process σ α}
      (h : Shadows w p (next w.now)) : Shadows w p (.look next)
  /-- The first one writes a request down. -/
  | marks {w : Watched σ} {asked : List Request} {p : Process (Watched σ) α} {q : Process σ α}
      (h : Shadows ⟨w.now, asked⟩ p q) : Shadows w (.become ⟨w.now, asked⟩ p) q
  /-- Both change the state. -/
  | becomes {w : Watched σ} {s : σ} {asked : List Request} {p : Process (Watched σ) α}
      {q : Process σ α} (h : Shadows ⟨s, asked⟩ p q) :
      Shadows w (.become ⟨s, asked⟩ p) (.become s q)
  /-- Both pause. -/
  | pauses {w : Watched σ} {ms : Nat} {p : Process (Watched σ) α} {q : Process σ α}
      (h : ∀ w', Shadows w' p q) : Shadows w (.pause ms p) (.pause ms q)

end Process

/-- Both processes stand at the same point. -/
inductive Progress.Shadows : Progress (Watched σ) α → Progress σ α → Prop
  /-- Both have ended. -/
  | ended (a : α) : Shadows (.ended a) (.ended a)
  /-- Both wait. -/
  | waiting {ms : Nat} {p : Process (Watched σ) α} {q : Process σ α}
      (h : ∀ w, Process.Shadows w p q) : Shadows (.waiting ms p) (.waiting ms q)

namespace Process

variable {w : Watched σ} {p : Process (Watched σ) α} {q : Process σ α}

theorem Shadows.bind {f : α → Process (Watched σ) β} {g : α → Process σ β} (h : Shadows w p q)
    (hf : ∀ a w', Shadows w' (f a) (g a)) : Shadows w (p >>= f) (q >>= g) := by
  induction h with
  | done w a => exact hf a w
  | looks _ ih => exact .looks ih
  | sees _ ih => exact .sees ih
  | marks _ ih => exact .marks ih
  | becomes _ ih => exact .becomes ih
  | pauses _ ih => exact .pauses ih

/-- Up to the next pause both do the same. -/
theorem Shadows.advance (h : Shadows w p q) :
    Progress.Shadows (p.advance w).1 (q.advance w.now).1 ∧
      (p.advance w).2.now = (q.advance w.now).2 := by
  induction h with
  | done w a => exact ⟨.ended a, rfl⟩
  | looks _ ih => exact ih
  | sees _ ih => exact ih
  | marks _ ih => exact ih
  | becomes _ ih => exact ih
  | pauses h _ => exact ⟨.waiting h, rfl⟩

theorem shadows_onNow (p : Process σ α) (w : Watched σ) : Shadows w p.onNow p := by
  induction p generalizing w with
  | done a => exact .done w a
  | look next ih => exact .looks (.sees (ih w.now w))
  | become s next ih => exact .looks (.becomes (ih ⟨s, w.asked⟩))
  | pause ms next ih => exact .pauses ih

theorem shadows_call (r : Request) (f : σ → α × σ) (w : Watched σ) :
    Shadows w (update (Watched.call r f)) (update f) :=
  .looks (.sees (.becomes (.done _ _)))

/-- A process on the state alone does beside the requests what it does without them. -/
theorem Makes.onNow {G : σ → σ → Prop} {p : Process σ α} {w : Watched σ} (h : p.Makes G w.now) :
    p.onNow.Makes (fun w w' => G w.now w'.now ∧ w'.asked = w.asked) w := by
  induction p generalizing w with
  | done a => trivial
  | look next ih => exact ih w.now h
  | become s next ih => exact ⟨⟨h.1, rfl⟩, ih h.2⟩
  | pause ms next ih => exact fun w' _ => ih (h w'.now trivial)

end Process

namespace Surroundings

/-- The same surroundings, in which every request is written down as it is made. -/
def watched (e : Surroundings σ) : Surroundings (Watched σ) where
  home := e.home
  directory.homeStatus := Watched.call .homeStatus e.directory.homeStatus
  directory.databases := Watched.call .databases e.directory.databases
  directory.status key := Watched.call (.status key) (e.directory.status key)
  directory.setStatus key s := Watched.call (.setStatus key s) (e.directory.setStatus key s)
  directory.onlineNodes database :=
    Watched.call (.onlineNodes database) (e.directory.onlineNodes database)
  installer source := do
    Process.modify (Watched.ask (.install source))
    (e.installer source).onNow
  transport database peers timeoutMs := do
    Process.modify (Watched.ask (.heartbeat database peers timeoutMs))
    (e.transport database peers timeoutMs).onNow
  note n w := ⟨e.note n w.now, w.asked ++ [.note n]⟩

/-- A request is answered as before. -/
theorem shadows_answer (e : Surroundings σ) (r : Request) (w : Watched σ) :
    Process.Shadows w (e.watched.answer r) (e.answer r) := by
  cases r with
  | homeStatus => exact Process.shadows_call _ _ w
  | databases => exact Process.shadows_call _ _ w
  | status key => exact Process.shadows_call _ _ w
  | setStatus key s => exact Process.shadows_call _ _ w
  | onlineNodes database => exact Process.shadows_call _ _ w
  | install source => exact .looks (.marks (Process.shadows_onNow _ _))
  | heartbeat database peers timeoutMs => exact .looks (.marks (Process.shadows_onNow _ _))
  | note n => exact .looks (.sees (.becomes (.done _ _)))

/-- Whatever the answer to a request takes, the request is written down once, and the state changes
as it does without. -/
theorem makes_answer {e : Surroundings σ} {r : Request} {G : σ → σ → Prop}
    (h : ∀ s, (e.answer r).Makes G s) (w : Watched σ) :
    (e.watched.answer r).Makes (Watched.Follows r G) w := by
  cases r with
  | homeStatus => exact ⟨⟨.inr (h w.now).1, .inr rfl⟩, trivial⟩
  | databases => exact ⟨⟨.inr (h w.now).1, .inr rfl⟩, trivial⟩
  | status key => exact ⟨⟨.inr (h w.now).1, .inr rfl⟩, trivial⟩
  | setStatus key s => exact ⟨⟨.inr (h w.now).1, .inr rfl⟩, trivial⟩
  | onlineNodes database => exact ⟨⟨.inr (h w.now).1, .inr rfl⟩, trivial⟩
  | install source =>
    have hrest := (h w.now).onNow (w := w.ask (.install source))
    refine ⟨⟨.inl rfl, .inr rfl⟩, Process.Ensures.mono hrest (fun _ _ h => h) ?_ fun _ _ h => h⟩
    exact fun _ _ hw => ⟨.inr hw.1, .inl hw.2⟩
  | heartbeat database peers timeoutMs =>
    have hrest := (h w.now).onNow (w := w.ask (.heartbeat database peers timeoutMs))
    refine ⟨⟨.inl rfl, .inr rfl⟩, Process.Ensures.mono hrest (fun _ _ h => h) ?_ fun _ _ h => h⟩
    exact fun _ _ hw => ⟨.inr hw.1, .inl hw.2⟩
  | note n => exact ⟨⟨.inr (h w.now).1, .inr rfl⟩, trivial⟩

end Surroundings

namespace Terms

/-- A request may be answered with anything, and only requests of a kind may be made. -/
def only (P : Request → Prop) : Terms Unit where
  answers _ _ _ _ := True
  allows _ r _ := P r

@[simp] theorem only_answers {P : Request → Prop} {b b' : Unit} {r : Request} {x : r.Answer} :
    (only P).answers b r x b' ↔ True := Iff.rfl

@[simp] theorem only_allows {P : Request → Prop} {b b' : Unit} {r : Request} :
    (only P).allows b r b' ↔ P r := Iff.rfl

end Terms

namespace Program

/-- **Watching changes nothing.** -/
theorem shadows_within (e : Surroundings σ) (p : Program α) (w : Watched σ) :
    Process.Shadows w (p.within e.watched) (p.within e) := by
  induction p generalizing w with
  | done a => exact .done w a
  | ask r next ih => exact (e.shadows_answer r w).bind fun x w' => ih x w'

/-- **Only what a program may ask is written down**, whatever others do while it waits. -/
theorem Meets.watched {P : Request → Prop} {Q : α → Prop} {p : Program α}
    (h : p.Meets (.only P) (fun a _ => Q a) ()) (e : Surroundings σ) (w : Watched σ) :
    (p.within e.watched).Ensures (fun _ _ => True) (Watched.Grows P) (fun a _ => Q a) w := by
  refine (h.ensures (fun _ _ => True) ?_ trivial).mono (fun _ _ h => h) (fun _ _ h => h)
    fun a _ ⟨_, _, ha⟩ => ha
  intro r s _ _ hallowed
  obtain ⟨x⟩ := r.nonempty_answer
  have hmakes := Surroundings.makes_answer (fun s => (e.answer r).makes_anything s) s
  exact hmakes.mono (fun _ _ h => h) (fun _ _ h => h.grows (hallowed x () trivial))
    fun _ _ _ => ⟨(), trivial, trivial⟩

end Program

end Upkeep
