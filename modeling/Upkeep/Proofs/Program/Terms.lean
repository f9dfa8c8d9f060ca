import Upkeep.Proofs.Process.Guarantee
import Upkeep.Surroundings

/-!
# Terms between a program and its surroundings

`Terms β` lay down, on a view `β` of what lies around a program, how each request may be answered
and what the view is then, and which requests may be made.  `Program.Meets` judges a program by
them: whatever it is answered within the terms, it makes only requests that they allow, and `Q`
holds in the end.  The judgement is made on the tree of requests alone; `Program.Meets.ensures`
carries it over to the process that the tree becomes in surroundings that keep to the terms.

A `Check` is judged by `Check.Meets`, where `Q` speaks of the case in which no request failed.
`Program.meets_run_bind` and its kin judge a check where `Q` speaks of its reply.
-/

namespace Upkeep

variable {σ α β γ δ : Type}

theorem Request.nonempty_answer (r : Request) : Nonempty r.Answer := by
  cases r <;> exact inferInstance

/-- How requests may be answered, and which ones may be made. -/
structure Terms (β : Type) where
  /-- In view `b` a request may be answered with `x`, which leaves the view `b'`. -/
  answers : β → (r : Request) → r.Answer → β → Prop
  /-- In view `b` a request may be made that leaves the view `b'`. -/
  allows : β → Request → β → Prop

/-- What stays true under the terms once it is. -/
def Terms.Stable (t : Terms β) (P : β → Prop) : Prop :=
  ∀ b r x b', P b → t.answers b r x b' → t.allows b r b' → P b'

/-- Only allowed requests are made, and `Q` holds in the end. -/
def Program.Meets (t : Terms β) (Q : α → β → Prop) : Program α → β → Prop
  | .done a, b => Q a b
  | .ask r next, b => ∀ x b', t.answers b r x b' → t.allows b r b' ∧ (next x).Meets t Q b'

/-- Only allowed requests are made, and `Q` holds in the end if none of them failed. -/
def Check.Meets (t : Terms β) (Q : α → β → Prop) (c : Check α) (b : β) : Prop :=
  Program.Meets t (fun reply b' => ∀ a, reply = .ok a → Q a b') (ExceptT.run c) b

namespace Program

variable {t : Terms β} {Q Q' : α → β → Prop} {b : β}

theorem Meets.mono {p : Program α} (h : p.Meets t Q b) (hQ : ∀ a b, Q a b → Q' a b) :
    p.Meets t Q' b := by
  induction p generalizing b with
  | done a => exact hQ a b h
  | ask r next ih => exact fun x b' hx => ⟨(h x b' hx).1, ih x (h x b' hx).2⟩

theorem meets_bind {p : Program α} {f : α → Program γ} {Q : γ → β → Prop} :
    (p >>= f).Meets t Q b ↔ p.Meets t (fun a b' => (f a).Meets t Q b') b := by
  induction p generalizing b with
  | done a => exact Iff.rfl
  | ask r next ih => exact forall₃_congr fun x b' _ => and_congr_right fun _ => ih x

/-- What is stable under the terms holds in the end if it holds at the start. -/
theorem Meets.keep {p : Program α} {P : β → Prop} (h : p.Meets t Q b) (hP : t.Stable P)
    (hb : P b) : p.Meets t (fun a b' => Q a b' ∧ P b') b := by
  induction p generalizing b with
  | done a => exact ⟨h, hb⟩
  | ask r next ih =>
    intro x b' hx
    obtain ⟨hallowed, hnext⟩ := h x b' hx
    exact ⟨hallowed, ih x hnext (hP b r x b' hb hx hallowed)⟩

/-- **What a program is judged to do it does in surroundings that keep to the terms.**  `hans` is
what has to be shown of the answer to each request, and it may be shown for those requests only
that the terms allow. -/
theorem Meets.ensures {e : Surroundings σ} (shows : σ → β → Prop) {R G : σ → σ → Prop}
    (hans : ∀ r s b, shows s b → (∀ x b', t.answers b r x b' → t.allows b r b') →
      (e.answer r).Ensures R G (fun x s' => ∃ b', shows s' b' ∧ t.answers b r x b') s)
    {p : Program α} {s : σ} (h : p.Meets t Q b) (hs : shows s b) :
    (p.within e).Ensures R G (fun a s' => ∃ b', shows s' b' ∧ Q a b') s := by
  induction p generalizing b s with
  | done a => exact ⟨b, hs, h⟩
  | ask r next ih =>
    -- the view is carried along with the state that shows it
    rw [within_ask, Process.ensures_bind]
    refine (hans r s b hs fun x b' hx => (h x b' hx).1).mono (fun _ _ h => h) (fun _ _ h => h) ?_
    rintro x s' ⟨b', hs', hx⟩
    exact ih x (h x b' hx).2 hs'

/-- What every answer of the surroundings keeps to, a program in them keeps to. -/
theorem makes_within {e : Surroundings σ} {G : σ → σ → Prop}
    (h : ∀ r s, (e.answer r).Makes G s) (p : Program α) (s : σ) : (p.within e).Makes G s := by
  induction p generalizing s with
  | done a => trivial
  | ask r next ih => exact (h r s).bind ih

end Program

namespace Check

variable {t : Terms β} {Q Q' : α → β → Prop} {b : β}

theorem Meets.mono {c : Check α} (h : Check.Meets t Q c b) (hQ : ∀ a b, Q a b → Q' a b) :
    Check.Meets t Q' c b :=
  Program.Meets.mono h fun _ _ hr a ha => hQ a _ (hr a ha)

@[simp] theorem meets_pure {a : α} : Check.Meets t Q (pure a) b ↔ Q a b := by
  constructor
  · exact fun h => h a rfl
  · intro h a' ha
    cases ha
    exact h

@[simp] theorem meets_bind {c : Check α} {f : α → Check γ} {Q : γ → β → Prop} :
    Check.Meets t Q (c >>= f) b ↔ Check.Meets t (fun a b' => Check.Meets t Q (f a) b') c b := by
  simp only [Check.Meets, ExceptT.run_bind]
  rw [Program.meets_bind]
  constructor
  · intro h
    refine h.mono fun reply b' hr a ha => ?_
    subst ha
    exact hr
  · intro h
    refine h.mono fun reply b' hr => ?_
    cases reply with
    | ok a => exact hr a rfl
    | error e => exact fun a ha => nomatch ha

theorem meets_lift {p : Program α} : Check.Meets t Q (ExceptT.lift p) b ↔ p.Meets t Q b := by
  simp only [Check.Meets, ExceptT.run_lift, map_eq_pure_bind]
  rw [Program.meets_bind]
  constructor
  · exact fun h => h.mono fun a b' ha => ha a rfl
  · refine fun h => h.mono fun a b' ha a' h' => ?_
    cases h'
    exact ha

/-- A reply that is at hand goes on only if it is no failure. -/
@[simp] theorem meets_reply {r : Reply α} :
    Check.Meets t Q (liftM r) b ↔ ∀ a, r = .ok a → Q a b := Iff.rfl

/-- Tidying up the value of a check asks for nothing. -/
@[simp] theorem meets_map {f : α → γ} {c : Check α} {Q : γ → β → Prop} :
    Check.Meets t Q (f <$> c) b ↔ Check.Meets t (fun a b' => Q (f a) b') c b := by
  rw [map_eq_pure_bind, meets_bind]
  simp only [meets_pure]

section Requests

/-! ### The requests of a check -/

@[simp] theorem meets_homeStatus {Q : MemberStatus → β → Prop} :
    Check.Meets t Q homeStatus b ↔ ∀ x b', t.answers b .homeStatus x b' →
      t.allows b .homeStatus b' ∧ ∀ a, x = .ok a → Q a b' := Iff.rfl

@[simp] theorem meets_databases {Q : List Database → β → Prop} :
    Check.Meets t Q databases b ↔ ∀ x b', t.answers b .databases x b' →
      t.allows b .databases b' ∧ ∀ a, x = .ok a → Q a b' := Iff.rfl

@[simp] theorem meets_status {key : CopyKey} {Q : Option CopyStatus → β → Prop} :
    Check.Meets t Q (status key) b ↔ ∀ x b', t.answers b (.status key) x b' →
      t.allows b (.status key) b' ∧ ∀ a, x = .ok a → Q a b' := Iff.rfl

@[simp] theorem meets_setStatus {key : CopyKey} {s : CopyStatus} {Q : Unit → β → Prop} :
    Check.Meets t Q (setStatus key s) b ↔ ∀ x b', t.answers b (.setStatus key s) x b' →
      t.allows b (.setStatus key s) b' ∧ ∀ a, x = .ok a → Q a b' := Iff.rfl

@[simp] theorem meets_onlineNodes {database : Database} {Q : List Node → β → Prop} :
    Check.Meets t Q (onlineNodes database) b ↔ ∀ x b', t.answers b (.onlineNodes database) x b' →
      t.allows b (.onlineNodes database) b' ∧ ∀ a, x = .ok a → Q a b' := Iff.rfl

@[simp] theorem meets_install {source : InstallSource} {Q : Reply Bool → β → Prop} :
    Check.Meets t Q (install source) b ↔ ∀ x b', t.answers b (.install source) x b' →
      t.allows b (.install source) b' ∧ Q x b' := meets_lift

@[simp] theorem meets_heartbeat {database : Database} {peers : List Node} {timeoutMs : Nat}
    {Q : Reply Responses → β → Prop} :
    Check.Meets t Q (heartbeat database peers timeoutMs) b ↔
      ∀ x b', t.answers b (.heartbeat database peers timeoutMs) x b' →
        t.allows b (.heartbeat database peers timeoutMs) b' ∧ Q x b' := meets_lift

@[simp] theorem meets_report {r : Report} {Q : Unit → β → Prop} :
    Check.Meets t Q (report r) b ↔ ∀ b', t.answers b (.note (.report r)) () b' →
      t.allows b (.note (.report r)) b' ∧ Q () b' :=
  meets_lift.trans ⟨fun h => h (), fun h _ => h⟩

@[simp] theorem meets_count {c : Counter} {Q : Unit → β → Prop} :
    Check.Meets t Q (count c) b ↔ ∀ b', t.answers b (.note (.count c)) () b' →
      t.allows b (.note (.count c)) b' ∧ Q () b' :=
  meets_lift.trans ⟨fun h => h (), fun h _ => h⟩

end Requests

/-- An invariant that every member of a list keeps is kept by the whole list. -/
theorem Meets.gather {f : α → Check (List γ)} {I : β → Prop} :
    ∀ {l : List α} {b : β}, (∀ a ∈ l, ∀ b, I b → Check.Meets t (fun _ => I) (f a) b) → I b →
      Check.Meets t (fun _ => I) (Check.gather f l) b
  | [], _, _, hb => meets_pure.2 hb
  | a :: rest, b, hf, hb => by
    refine meets_bind.2 ((hf a List.mem_cons_self b hb).mono fun found b' hb' => ?_)
    refine meets_bind.2 ((Meets.gather (fun a' ha' => hf a' (List.mem_cons_of_mem a ha')) hb').mono
      fun later b'' hb'' => meets_pure.2 hb'')

/-- What is stable under the terms holds after a check if it holds before. -/
theorem Meets.keep {c : Check α} {P : β → Prop} (h : Check.Meets t Q c b) (hP : t.Stable P)
    (hb : P b) : Check.Meets t (fun a b' => Q a b' ∧ P b') c b :=
  (Program.Meets.keep h hP hb).mono fun _ _ hr a ha => ⟨hr.1 a ha, hr.2⟩

/-- What each member of a list establishes holds of all of them in the end, if it is stable. -/
theorem Meets.gather_all {f : α → Check (List γ)} {I : β → Prop} {P : α → β → Prop}
    (hP : ∀ a, t.Stable (P a)) :
    ∀ {l : List α} {b : β}, (∀ a ∈ l, ∀ b, I b → Check.Meets t (fun _ b' => I b' ∧ P a b') (f a) b) →
      I b → Check.Meets t (fun _ b' => I b' ∧ ∀ a ∈ l, P a b') (Check.gather f l) b
  | [], _, _, hb => meets_pure.2 ⟨hb, fun _ ha => nomatch ha⟩
  | a :: rest, b, hf, hb => by
    refine meets_bind.2 ((hf a List.mem_cons_self b hb).mono fun found b' hb' => ?_)
    -- what the first member establishes stays true while the rest is gone through
    have hrest := Meets.gather_all hP (fun a' ha' => hf a' (List.mem_cons_of_mem a ha')) hb'.1
    refine meets_bind.2 ((hrest.keep (hP a) hb'.2).mono fun later b'' hb'' => meets_pure.2 ?_)
    obtain ⟨⟨hI, hall⟩, ha⟩ := hb''
    exact ⟨hI, List.forall_mem_cons.2 ⟨ha, hall⟩⟩

end Check

namespace Program

variable {t : Terms β} {b : β}

/-! ### The reply of a check -/

/-- A check goes on after a request that did not fail, and ends with the failure otherwise. -/
theorem meets_run_bind {c : Check α} {f : α → Check γ} {Q : Reply γ → β → Prop} :
    Program.Meets t Q (ExceptT.run (c >>= f)) b ↔
      Program.Meets t (fun reply b' =>
        (∀ a, reply = .ok a → Program.Meets t Q (ExceptT.run (f a)) b') ∧
          ∀ a, reply = .error a → Q (.error a) b') (ExceptT.run c) b := by
  rw [ExceptT.run_bind, meets_bind]
  constructor
  · intro h
    refine h.mono fun reply b' hr => ⟨fun a ha => ?_, fun a ha => ?_⟩
    · subst ha
      exact hr
    · subst ha
      exact hr
  · intro h
    refine h.mono fun reply b' hr => ?_
    cases reply with
    | ok a => exact hr.1 a rfl
    | error a => exact hr.2 a rfl

/-- After a request that does not fail a check goes on. -/
theorem meets_run_of_ok {c : Check α} {f : α → Check γ} {P : α → β → Prop} {Q : Reply γ → β → Prop}
    (hc : Program.Meets t (fun reply b' => ∃ a, reply = .ok a ∧ P a b') (ExceptT.run c) b)
    (hf : ∀ a b', P a b' → Program.Meets t Q (ExceptT.run (f a)) b') :
    Program.Meets t Q (ExceptT.run (c >>= f)) b := by
  refine meets_run_bind.2 (hc.mono fun reply b' h => ?_)
  obtain ⟨a, rfl, hP⟩ := h
  refine ⟨fun a' ha' => ?_, fun a' ha' => ?_⟩
  · cases ha'
    exact hf a b' hP
  · cases ha'

/-- After a request with a known answer a check goes on with that answer. -/
theorem meets_run_ok {c : Check α} {f : α → Check γ} {a : α} {b' : β} {Q : Reply γ → β → Prop}
    (hc : Program.Meets t (fun reply b'' => reply = .ok a ∧ b'' = b') (ExceptT.run c) b)
    (hf : Program.Meets t Q (ExceptT.run (f a)) b') :
    Program.Meets t Q (ExceptT.run (c >>= f)) b := by
  refine meets_run_of_ok (P := fun a' b'' => a' = a ∧ b'' = b')
    (hc.mono fun reply b'' h => ⟨a, h.1, rfl, h.2⟩) ?_
  rintro _ _ ⟨rfl, rfl⟩
  exact hf

/-- With a reply that is at hand a check goes on if it is no failure. -/
theorem meets_run_reply {a : α} {f : α → Check γ} {Q : Reply γ → β → Prop}
    (h : Program.Meets t Q (ExceptT.run (f a)) b) :
    Program.Meets t Q (ExceptT.run (liftM (Except.ok a : Reply α) >>= f)) b := h

end Program

end Upkeep
