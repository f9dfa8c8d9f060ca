import Upkeep.Proofs.Watched

/-!
# What a program was told

A `Told` is a request with its answer, and a history is a list of them.  `Terms.heard` let a
program be answered with anything and judge each request by the history before it, so that
`Program.Meets` says what a program may ask after what it was told.

A program that runs alone leaves a trace: each request with its answer and the states before and
after it.

* `Program.outcome_watched` : the trace is what is written down of the program.
* `Program.Meets.trace` : what is judged of the requests of a program holds along its trace.
* `Program.trace_invariant` : what each exchange keeps of history and state holds along the trace.
-/

namespace Upkeep

variable {σ α β : Type}

/-- A request and its answer. -/
structure Told where
  /-- The request. -/
  request : Request
  /-- The answer. -/
  answer : request.Answer

namespace Terms

/-- A request may be answered with anything and is judged by what was told before. -/
def heard (P : List Told → Request → Prop) : Terms (List Told) where
  answers h r x h' := h' = h ++ [⟨r, x⟩]
  allows h r _ := P h r

@[simp] theorem heard_answers {P : List Told → Request → Prop} {h h' : List Told} {r : Request}
    {x : r.Answer} : (heard P).answers h r x h' ↔ h' = h ++ [⟨r, x⟩] := Iff.rfl

@[simp] theorem heard_allows {P : List Told → Request → Prop} {h h' : List Told} {r : Request} :
    (heard P).allows h r h' ↔ P h r := Iff.rfl

/-- What is once told stays told. -/
theorem heard_stable {P : List Told → Request → Prop} {T : List Told → Prop}
    (hT : ∀ h x, T h → T (h ++ [x])) : (heard P).Stable T := by
  rintro h r x h' hh rfl -
  exact hT h _ hh

end Terms

namespace Check

/-! ### The requests of a check, judged by what was told before -/

variable {P : List Told → Request → Prop} {h : List Told}

theorem heard_homeStatus {Q : MemberStatus → List Told → Prop} (hP : P h .homeStatus)
    (hQ : ∀ a, Q a (h ++ [⟨.homeStatus, .ok a⟩])) :
    Check.Meets (.heard P) Q homeStatus h := by
  rintro _ _ rfl
  exact ⟨hP, fun a ha => ha ▸ hQ a⟩

theorem heard_databases {Q : List Database → List Told → Prop} (hP : P h .databases)
    (hQ : ∀ a, Q a (h ++ [⟨.databases, .ok a⟩])) :
    Check.Meets (.heard P) Q databases h := by
  rintro _ _ rfl
  exact ⟨hP, fun a ha => ha ▸ hQ a⟩

theorem heard_status {key : CopyKey} {Q : Option CopyStatus → List Told → Prop}
    (hP : P h (.status key)) (hQ : ∀ a, Q a (h ++ [⟨.status key, .ok a⟩])) :
    Check.Meets (.heard P) Q (status key) h := by
  rintro _ _ rfl
  exact ⟨hP, fun a ha => ha ▸ hQ a⟩

theorem heard_setStatus {key : CopyKey} {s : CopyStatus} {Q : Unit → List Told → Prop}
    (hP : P h (.setStatus key s)) (hQ : Q () (h ++ [⟨.setStatus key s, .ok ()⟩])) :
    Check.Meets (.heard P) Q (setStatus key s) h := by
  rintro _ _ rfl
  exact ⟨hP, fun a ha => ha ▸ hQ⟩

theorem heard_onlineNodes {database : Database} {Q : List Node → List Told → Prop}
    (hP : P h (.onlineNodes database)) (hQ : ∀ a, Q a (h ++ [⟨.onlineNodes database, .ok a⟩])) :
    Check.Meets (.heard P) Q (onlineNodes database) h := by
  rintro _ _ rfl
  exact ⟨hP, fun a ha => ha ▸ hQ a⟩

theorem heard_install {source : InstallSource} {Q : Reply Bool → List Told → Prop}
    (hP : P h (.install source)) (hQ : ∀ a, Q a (h ++ [⟨.install source, a⟩])) :
    Check.Meets (.heard P) Q (install source) h := by
  refine meets_install.2 ?_
  rintro a _ rfl
  exact ⟨hP, hQ a⟩

theorem heard_heartbeat {database : Database} {peers : List Node} {timeoutMs : Nat}
    {Q : Reply Responses → List Told → Prop} (hP : P h (.heartbeat database peers timeoutMs))
    (hQ : ∀ a, Q a (h ++ [⟨.heartbeat database peers timeoutMs, a⟩])) :
    Check.Meets (.heard P) Q (heartbeat database peers timeoutMs) h := by
  refine meets_heartbeat.2 ?_
  rintro a _ rfl
  exact ⟨hP, hQ a⟩

theorem heard_report {r : Report} {Q : Unit → List Told → Prop} (hP : P h (.note (.report r)))
    (hQ : Q () (h ++ [⟨.note (.report r), ()⟩])) : Check.Meets (.heard P) Q (report r) h := by
  refine meets_report.2 ?_
  rintro _ rfl
  exact ⟨hP, hQ⟩

theorem heard_count {c : Counter} {Q : Unit → List Told → Prop} (hP : P h (.note (.count c)))
    (hQ : Q () (h ++ [⟨.note (.count c), ()⟩])) : Check.Meets (.heard P) Q (count c) h := by
  refine meets_count.2 ?_
  rintro _ rfl
  exact ⟨hP, hQ⟩

end Check

/-- A request, its answer, and the states before and after it. -/
structure Exchange (σ : Type) where
  /-- The request. -/
  request : Request
  /-- The state in which it is made. -/
  before : σ
  /-- The answer. -/
  answer : request.Answer
  /-- The state in which it is answered. -/
  after : σ

/-- An exchange without the states. -/
def Exchange.told (x : Exchange σ) : Told := ⟨x.request, x.answer⟩

/-- The exchange that a request leads to in given surroundings, if nothing else happens. -/
def Surroundings.exchange (e : Surroundings σ) (r : Request) (s : σ) : Exchange σ where
  request := r
  before := s
  answer := ((e.answer r).finish 0 s).1.1
  after := ((e.answer r).finish 0 s).2

@[simp] theorem exchange_request (e : Surroundings σ) (r : Request) (s : σ) :
    (e.exchange r s).request = r := rfl

@[simp] theorem exchange_before (e : Surroundings σ) (r : Request) (s : σ) :
    (e.exchange r s).before = s := rfl

@[simp] theorem exchange_told (e : Surroundings σ) (r : Request) (s : σ) :
    (e.exchange r s).told = ⟨r, (e.exchange r s).answer⟩ := rfl

/-- A process on the state alone ends beside the requests as it does without them. -/
theorem Process.finish_onNow (p : Process σ α) (elapsed : Nat) (w : Watched σ) :
    p.onNow.finish elapsed w =
      ((p.finish elapsed w.now).1, ⟨(p.finish elapsed w.now).2, w.asked⟩) := by
  induction p generalizing elapsed w with
  | done a => rfl
  | look next ih => exact ih w.now elapsed w
  | become s next ih => exact ih elapsed ⟨s, w.asked⟩
  | pause ms next ih => exact ih (elapsed + ms) w

/-- An exchange that is watched is written down. -/
theorem Surroundings.exchange_watched (e : Surroundings σ) (r : Request) (w : Watched σ) :
    (e.watched.exchange r w).answer = (e.exchange r w.now).answer ∧
      (e.watched.exchange r w).after = ⟨(e.exchange r w.now).after, w.asked ++ [r]⟩ := by
  cases r with
  | homeStatus | databases | status | setStatus | onlineNodes | note => exact ⟨rfl, rfl⟩
  | install source =>
    have hfinish := (e.installer source).finish_onNow 0 (w.ask (.install source))
    exact ⟨congrArg (·.1.1) hfinish, congrArg Prod.snd hfinish⟩
  | heartbeat database peers timeoutMs =>
    have hfinish := (e.transport database peers timeoutMs).finish_onNow 0
      (w.ask (.heartbeat database peers timeoutMs))
    exact ⟨congrArg (·.1.1) hfinish, congrArg Prod.snd hfinish⟩

namespace Program

/-- The exchanges of a program that runs alone. -/
def trace (e : Surroundings σ) : Program α → σ → List (Exchange σ)
  | .done _, _ => []
  | .ask r next, s =>
    let x := e.exchange r s
    x :: (next x.answer).trace e x.after

/-- The value and the state with which a program ends that runs alone. -/
def outcome (e : Surroundings σ) : Program α → σ → α × σ
  | .done a, s => (a, s)
  | .ask r next, s => (next (e.exchange r s).answer).outcome e (e.exchange r s).after

variable {e : Surroundings σ} {P : List Told → Request → Prop}

@[simp] theorem trace_done (a : α) (s : σ) : (done a).trace e s = [] := rfl

@[simp] theorem trace_ask (r : Request) (next : r.Answer → Program α) (s : σ) :
    (ask r next).trace e s =
      e.exchange r s :: (next (e.exchange r s).answer).trace e (e.exchange r s).after := rfl

@[simp] theorem outcome_ask (r : Request) (next : r.Answer → Program α) (s : σ) :
    (ask r next).outcome e s =
      (next (e.exchange r s).answer).outcome e (e.exchange r s).after := rfl

/-- The outcome of a program is that of the process that it becomes. -/
theorem finish_within (p : Program α) (elapsed : Nat) (s : σ) :
    (((p.within e).finish elapsed s).1.1, ((p.within e).finish elapsed s).2) = p.outcome e s := by
  induction p generalizing elapsed s with
  | done a => rfl
  | ask r next ih =>
    obtain ⟨hanswer, hafter⟩ := (e.answer r).finish_elapsed elapsed s
    rw [within_ask, Process.finish_bind, ih, hanswer, hafter]
    rfl

theorem outcome_bind (p : Program α) (f : α → Program β) (s : σ) :
    (p >>= f).outcome e s = (f (p.outcome e s).1).outcome e (p.outcome e s).2 := by
  induction p generalizing s with
  | done a => rfl
  | ask r next ih => exact ih _ _

/-- The second half of a program leaves its trace after that of the first. -/
theorem trace_bind (p : Program α) (f : α → Program β) (s : σ) :
    (p >>= f).trace e s = p.trace e s ++ (f (p.outcome e s).1).trace e (p.outcome e s).2 := by
  induction p generalizing s with
  | done a => rfl
  | ask r next ih => exact congrArg (e.exchange r s :: ·) (ih _ _)

/-- **The trace is what is written down of a program that runs alone.** -/
theorem outcome_watched (p : Program α) (w : Watched σ) :
    p.outcome e.watched w = ((p.outcome e w.now).1,
      ⟨(p.outcome e w.now).2, w.asked ++ (p.trace e w.now).map Exchange.request⟩) := by
  induction p generalizing w with
  | done a => simp [outcome]
  | ask r next ih =>
    obtain ⟨hanswer, hafter⟩ := e.exchange_watched r w
    have hstep : (ask r next).outcome e.watched w = (next (e.exchange r w.now).answer).outcome
        e.watched ⟨(e.exchange r w.now).after, w.asked ++ [r]⟩ :=
      congrArg₂ (fun x w' => (next x).outcome e.watched w') hanswer hafter
    refine hstep.trans ((ih _ _).trans ?_)
    simp

/-- **What is judged of the requests of a program holds along its trace.** -/
theorem Meets.trace {Q : α → List Told → Prop} {p : Program α} {h : List Told} {s : σ}
    (hp : p.Meets (.heard P) Q h) {t₀ t₁ : List (Exchange σ)} {x : Exchange σ}
    (ht : p.trace e s = t₀ ++ x :: t₁) : P (h ++ t₀.map Exchange.told) x.request := by
  induction p generalizing h s t₀ with
  | done a => simp at ht
  | ask r next ih =>
    obtain ⟨hr, hnext⟩ := hp (e.exchange r s).answer _ rfl
    -- the first exchange of the trace, or one of the rest
    cases t₀ with
    | nil =>
      obtain ⟨rfl, -⟩ := List.cons.inj ht
      simpa using hr
    | cons y t₀ =>
      obtain ⟨rfl, hrest⟩ := List.cons.inj ht
      simpa using ih _ hnext hrest

/-- **What each exchange keeps of history and state holds along the trace.** -/
theorem trace_invariant {I : List Told → σ → Prop}
    (hI : ∀ h s r, I h s → I (h ++ [(e.exchange r s).told]) (e.exchange r s).after)
    {p : Program α} {h : List Told} {s : σ} (hs : I h s) {t₀ t₁ : List (Exchange σ)}
    {x : Exchange σ} (ht : p.trace e s = t₀ ++ x :: t₁) :
    I (h ++ t₀.map Exchange.told) x.before ∧ x = e.exchange x.request x.before := by
  induction p generalizing h s t₀ with
  | done a => simp at ht
  | ask r next ih =>
    cases t₀ with
    | nil =>
      obtain ⟨rfl, -⟩ := List.cons.inj ht
      exact ⟨by simpa using hs, rfl⟩
    | cons y t₀ =>
      obtain ⟨rfl, hrest⟩ := List.cons.inj ht
      simpa using ih _ (hI h s r hs) hrest

/-- What each exchange keeps of a state holds in the end. -/
theorem outcome_invariant {I : σ → Prop} (hI : ∀ s r, I s → I (e.exchange r s).after)
    (p : Program α) {s : σ} (hs : I s) : I (p.outcome e s).2 := by
  induction p generalizing s with
  | done a => exact hs
  | ask r next ih => exact ih _ (hI s r hs)

/-- **What is judged to hold in the end holds after what a program that runs alone was told.** -/
theorem Meets.outcome_told {Q : α → List Told → Prop} {p : Program α} {h : List Told}
    (hp : p.Meets (.heard P) Q h) (s : σ) :
    Q (p.outcome e s).1 (h ++ (p.trace e s).map Exchange.told) := by
  induction p generalizing h s with
  | done a => simpa [outcome] using (show Q a h from hp)
  | ask r next ih => simpa using ih _ (hp (e.exchange r s).answer _ rfl).2 _

/-- Every request of a program that runs alone is one that it may make, whatever it is answered. -/
theorem Meets.trace_only {P' : Request → Prop} {Q : α → Prop} {p : Program α} {s : σ}
    (hp : p.Meets (.only P') (fun a _ => Q a) ()) {x : Exchange σ} (hx : x ∈ p.trace e s) :
    P' x.request := by
  induction p generalizing s with
  | done a => simp at hx
  | ask r next ih =>
    obtain ⟨hr, hnext⟩ := hp (e.exchange r s).answer () trivial
    obtain rfl | hx := List.mem_cons.1 hx
    · exact hr
    · exact ih _ hnext hx

/-- Every exchange of a trace is one that its request leads to. -/
theorem exchange_of_mem {p : Program α} {s : σ} {x : Exchange σ} (hx : x ∈ p.trace e s) :
    x = e.exchange x.request x.before := by
  obtain ⟨t₀, t₁, ht⟩ := List.append_of_mem hx
  exact (trace_invariant (I := fun _ _ => True) (h := []) (fun _ _ _ _ => trivial) trivial ht).2

/-- **From an exchange on a run is one of what is left of the program.** -/
theorem trace_split {p : Program α} {s : σ} {t₀ t₁ : List (Exchange σ)} {x : Exchange σ}
    (ht : p.trace e s = t₀ ++ x :: t₁) :
    ∃ q : Program α, q.trace e x.after = t₁ ∧ q.outcome e x.after = p.outcome e s := by
  induction p generalizing s t₀ with
  | done a => simp at ht
  | ask r next ih =>
    cases t₀ with
    | nil =>
      obtain ⟨rfl, hrest⟩ := List.cons.inj ht
      exact ⟨next (e.exchange r s).answer, hrest, rfl⟩
    | cons y t₀ => exact ih _ (List.cons.inj ht).2

/-- What each exchange of a run keeps of the state holds in the end. -/
theorem outcome_of_trace {I : σ → Prop} {p : Program α} {s : σ}
    (hI : ∀ x ∈ p.trace e s, I x.before → I x.after) (hs : I s) : I (p.outcome e s).2 := by
  induction p generalizing s with
  | done a => exact hs
  | ask r next ih =>
    obtain ⟨hfirst, hrest⟩ := List.forall_mem_cons.1 hI
    exact ih _ hrest (hfirst hs)

/-- A program may ask, whatever it is told, only what its judged requests are. -/
theorem Meets.only {P' : Request → Prop} (hP : ∀ h r, P h r → P' r) {Q : α → Prop}
    {p : Program α} {h : List Told} (hp : p.Meets (.heard P) (fun a _ => Q a) h) :
    p.Meets (.only P') (fun a _ => Q a) () := by
  induction p generalizing h with
  | done a => exact hp
  | ask r next ih =>
    intro x _ _
    obtain ⟨hr, hnext⟩ := hp x _ rfl
    exact ⟨hP h r hr, ih x hnext⟩

end Program

end Upkeep
