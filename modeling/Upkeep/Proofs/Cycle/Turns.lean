import Mathlib.Tactic.ByContra
import Upkeep.Cycle.Call
import Upkeep.Proofs.Cycle.Parts
import Upkeep.Proofs.Program.Terms

/-!
# The turns of concurrent calls

Calls of a cycle take turns: at each turn one of them goes on up to its next pause.  `Pool.Turn`
lists what a turn can be, given a judgement on what a cycle does once it has begun:

* the call has ended, and nothing happens;
* the call has not begun, the flag is up, and the call passes over;
* the call has not begun, the flag is down, and the call raises it;
* the call was running the checks and goes on.

`Pool.step_turn` shows that there is no other turn of a sound pool, and `Pool.sound_steps` that every
pool is sound: the flag is up exactly while one call runs the checks, there is never more than one,
and what that call was judged to do it still does, as the others have only passed over meanwhile.
-/

namespace Upkeep

variable {σ : Type}

/-- What is taken for granted of a judgement on cycles: while a call waits nothing may happen, or
one thing after another, or, as that is what other calls do, an entry on record; and `I` holds of
every state that can arise. -/
structure Surroundings.Admits (e : Surroundings σ) (I : σ → Prop) (R G : σ → σ → Prop) : Prop where
  /-- Nothing may happen. -/
  refl : ∀ s, R s s
  /-- One thing may happen after another. -/
  trans : ∀ s s' s'', R s s' → R s' s'' → R s s''
  /-- Something may be put on record. -/
  note : ∀ n s, R s (e.note n s)
  /-- What happens meanwhile keeps `I`. -/
  waits : ∀ s s', R s s' → I s → I s'
  /-- What a call does keeps `I`. -/
  works : ∀ s s', G s s' → I s → I s'

/-- A program keeps to the judgement from every state that can arise. -/
def Program.Keeps {α : Type} (e : Surroundings σ) (I : σ → Prop) (R G : σ → σ → Prop)
    (p : Program α) : Prop := ∀ s, I s → (p.within e).Ensures R G (fun _ => I) s

theorem Surroundings.Admits.closed_keeps {e : Surroundings σ} {I : σ → Prop} {R G : σ → σ → Prop}
    (hadmits : e.Admits I R G) (hnote : ∀ n s, G s (e.note n s)) :
    Program.Closed fun p => p.Keeps e I R G where
  pure _ _ hs := hs
  bind hp hf s hs := by
    rw [Program.within_bind, Process.ensures_bind]
    exact (hp s hs).mono (fun _ _ h => h) (fun _ _ h => h) fun a s' hs' => hf a s' hs'
  note n _ _ s hs := ⟨hnote n s, hadmits.waits _ _ (hadmits.note n s) hs⟩

namespace Call

variable {R G : σ → σ → Prop} {Q : CycleOutcome → σ → Prop}

@[simp] theorem isRunning_fresh : (fresh : Call σ).isRunning = false := rfl

@[simp] theorem isRunning_running (ms : Nat) (rest : Process σ CycleOutcome) :
    (running ms rest).isRunning = true := rfl

@[simp] theorem isRunning_ended (outcome : CycleOutcome) :
    (ended outcome : Call σ).isRunning = false := rfl

/-- How a call ended, if it has. -/
def outcome? : Call σ → Option CycleOutcome
  | fresh | running .. => none
  | ended outcome => some outcome

/-- Whether a call has begun. -/
def hasBegun : Call σ → Bool
  | fresh => false
  | running .. | ended _ => true

/-- Whether a call has raised the flag. -/
def hasRun : Call σ → Bool
  | fresh => false
  | running .. => true
  | ended outcome => outcome ≠ .skipped

/-- Whether a call has passed over. -/
def isSkipped (c : Call σ) : Bool := c.outcome? = some .skipped

@[simp] theorem hasRun_fresh : (fresh : Call σ).hasRun = false := rfl

@[simp] theorem hasRun_running (ms : Nat) (rest : Process σ CycleOutcome) :
    (running ms rest).hasRun = true := rfl

@[simp] theorem hasRun_ended (outcome : CycleOutcome) :
    (ended outcome : Call σ).hasRun = decide (outcome ≠ .skipped) := rfl

@[simp] theorem isSkipped_fresh : (fresh : Call σ).isSkipped = false := rfl

@[simp] theorem isSkipped_running (ms : Nat) (rest : Process σ CycleOutcome) :
    (running ms rest).isSkipped = false := rfl

@[simp] theorem isSkipped_ended (outcome : CycleOutcome) :
    (ended outcome : Call σ).isSkipped = decide (outcome = .skipped) := by
  simp [isSkipped, outcome?]

/-- What a call that is running the checks will do, it will do as it was judged to. -/
def Ensures (R G : σ → σ → Prop) (Q : CycleOutcome → σ → Prop) : Call σ → σ → Prop
  | running _ rest, s => ∀ s', R s s' → rest.Ensures R G Q s'
  | fresh, _ | ended _, _ => True

/-- A call that is running the checks stands here, or has just ended here. -/
def Reaches (R G : σ → σ → Prop) (Q : CycleOutcome → σ → Prop) : Call σ → σ → Prop
  | fresh, _ => False
  | running _ rest, s => ∀ s', R s s' → rest.Ensures R G Q s'
  | ended outcome, s => Q outcome s

theorem Reaches.ensures {c : Call σ} {s : σ} (h : c.Reaches R G Q s) : c.Ensures R G Q s := by
  cases c with
  | fresh => exact h.elim
  | running ms rest => exact h
  | ended outcome => trivial

theorem Ensures.of_not_running {c : Call σ} {s : σ} (h : c.isRunning = false) :
    c.Ensures R G Q s := by
  cases c with
  | fresh => trivial
  | running ms rest => exact nomatch h
  | ended outcome => trivial

theorem Reaches.hasBegun {c : Call σ} {s : σ} (h : c.Reaches R G Q s) : c.hasBegun = true := by
  cases c with
  | fresh => exact h.elim
  | running ms rest => rfl
  | ended outcome => rfl

/-- What others do meanwhile leaves the judgement in place. -/
theorem Ensures.rely {c : Call σ} {s s' : σ} (h : c.Ensures R G Q s)
    (hR : ∀ s'', R s' s'' → R s s'') : c.Ensures R G Q s' := by
  cases c with
  | fresh => trivial
  | running ms rest => exact fun s'' hs => h s'' (hR s'' hs)
  | ended outcome => trivial

theorem hold_reaches {p : Progress σ CycleOutcome} {s : σ} (h : p.Ensures R G Q s) :
    (hold (p, s)).1.Reaches R G Q s ∧ (hold (p, s)).2 = ⟨(hold (p, s)).1.isRunning, s⟩ := by
  cases p with
  | ended outcome => exact ⟨h, rfl⟩
  | waiting ms rest => exact ⟨h, rfl⟩

end Call

namespace Pool

/-- The flag is up exactly while a call runs the checks, and that call keeps to the judgement. -/
structure Sound (I : σ → Prop) (R G : σ → σ → Prop) (Q : CycleOutcome → σ → Prop) (p : Pool σ) :
    Prop where
  /-- At most one call is running the checks, and the flag tells whether one is. -/
  flag : p.calls.countP Call.isRunning = p.shared.busy.toNat
  /-- Every call keeps to the judgement. -/
  ensures : ∀ c ∈ p.calls, c.Ensures R G Q p.shared.world
  /-- The world is one that can arise. -/
  world : I p.shared.world

/-- What a turn of the `i`-th call can be. -/
inductive Turn (e : Surroundings σ) (R G : σ → σ → Prop) (Q : CycleOutcome → σ → Prop)
    (p : Pool σ) (i : Nat) : Pool σ → Prop
  /-- There is no such call, or it has ended. -/
  | idle (h : ∀ c, p.calls[i]? = some c → c.outcome?.isSome) : Turn e R G Q p i p
  /-- The call finds the flag up and passes over. -/
  | passes (hi : p.calls[i]? = some .fresh) (hbusy : p.shared.busy = true) :
      Turn e R G Q p i
        ⟨⟨true, Cycle.passed e p.shared.world⟩, p.calls.set i (.ended .skipped)⟩
  /-- The call finds the flag down and runs the checks up to a pause, or to their end. -/
  | begins {c : Call σ} {s : σ} (hi : p.calls[i]? = some .fresh) (hidle : p.shared.busy = false)
      (hs : Relation.ReflTransGen G (Cycle.opened e p.shared.world) s)
      (hc : c.Reaches R G Q s) : Turn e R G Q p i ⟨⟨c.isRunning, s⟩, p.calls.set i c⟩
  /-- The call was running the checks and goes on up to a pause, or to their end. -/
  | goesOn {ms : Nat} {rest : Process σ CycleOutcome} {c : Call σ} {s : σ}
      (hi : p.calls[i]? = some (.running ms rest))
      (hs : Relation.ReflTransGen G p.shared.world s)
      (hc : c.Reaches R G Q s) : Turn e R G Q p i ⟨⟨c.isRunning, s⟩, p.calls.set i c⟩

variable {e : Surroundings σ} {policy : DemotionPolicy} {I : σ → Prop} {R G : σ → σ → Prop}
  {Q : CycleOutcome → σ → Prop} {p : Pool σ}

theorem steps_cons (i : Nat) (order : List Nat) :
    p.steps e policy (i :: order) = (p.step e policy i).steps e policy order := rfl

/-- A call that has ended does nothing at its turns. -/
theorem step_of_idle {i : Nat} (h : ∀ c, p.calls[i]? = some c → c.outcome?.isSome) :
    p.step e policy i = p := by
  cases hi : p.calls[i]? with
  | none => simp only [step, hi]
  | some c =>
    cases c with
    | fresh => exact nomatch h _ hi
    | running ms rest => exact nomatch h _ hi
    | ended outcome =>
      obtain ⟨hlt, hget⟩ := List.getElem?_eq_some_iff.1 hi
      simp only [step, hi, Call.step]
      rw [← hget, List.set_getElem_self]

/-- A turn is one of a single call. -/
theorem getElem?_step_ne {i j : Nat} (h : j ≠ i) :
    (p.step e policy i).calls[j]? = p.calls[j]? := by
  unfold step
  split
  · rfl
  · exact List.getElem?_set_ne (Ne.symm h)

theorem length_step (i : Nat) : (p.step e policy i).calls.length = p.calls.length := by
  unfold step
  split
  · rfl
  · exact List.length_set

theorem length_steps (p : Pool σ) (order : List Nat) :
    (p.steps e policy order).calls.length = p.calls.length := by
  induction order generalizing p with
  | nil => rfl
  | cons i order ih => exact (ih (p.step e policy i)).trans (length_step i)

/-- Which calls have ended, and how, is told by their outcomes. -/
theorem getElem?_of_outcomes {calls : List (Call σ)} {outcomes : List (Option CycleOutcome)}
    (h : calls.map Call.outcome? = outcomes) {i : Nat} {outcome : CycleOutcome}
    (hi : outcomes[i]? = some (some outcome)) : calls[i]? = some (.ended outcome) := by
  rw [← h, List.getElem?_map, Option.map_eq_some_iff] at hi
  obtain ⟨call, hcall, houtcome⟩ := hi
  rw [hcall]
  cases call with
  | fresh | running => exact nomatch houtcome
  | ended other =>
    obtain rfl := Option.some.inj houtcome
    rfl

/-- A call that finds the flag up passes over. -/
theorem step_passOver {i : Nat} (hi : p.calls[i]? = some .fresh) (hbusy : p.shared.busy = true) :
    p.step e policy i =
      ⟨⟨true, Cycle.passed e p.shared.world⟩, p.calls.set i (.ended .skipped)⟩ := by
  simp only [step, hi, Call.step, Call.begin, hbusy, Cycle.advance_passOver, Call.passBy, if_true]

/-- A call that finds the flag down runs the checks. -/
theorem step_begin {i : Nat} (hi : p.calls[i]? = some .fresh) (hidle : p.shared.busy = false) :
    p.step e policy i =
      let x := Call.hold (((Cycle.rest e.home policy).within e).advance
        (Cycle.opened e p.shared.world))
      ⟨x.2, p.calls.set i x.1⟩ := by
  simp only [step, hi, Call.step, Call.begin, hidle, Cycle.advance_body, Bool.false_eq_true,
    if_false]

/-- A call that was running the checks goes on. -/
theorem step_goOn {i ms : Nat} {rest : Process σ CycleOutcome}
    (hi : p.calls[i]? = some (.running ms rest)) :
    p.step e policy i =
      let x := Call.hold (rest.advance p.shared.world)
      ⟨x.2, p.calls.set i x.1⟩ := by
  simp only [step, hi, Call.step]

/-- **There is no other turn.** -/
theorem step_turn (hR : e.Admits I R G)
    (hrest : ∀ s, I s → ((Cycle.rest e.home policy).within e).Ensures R G Q s) (hp : p.Sound I R G Q)
    (i : Nat) : Turn e R G Q p i (p.step e policy i) := by
  cases hi : p.calls[i]? with
  | none =>
    have hidle : ∀ c, p.calls[i]? = some c → c.outcome?.isSome := fun c hc =>
      absurd (hi.symm.trans hc) (by simp)
    rw [step_of_idle hidle]
    exact .idle hidle
  | some c =>
    cases c with
    | fresh =>
      -- its first turn: the flag decides
      cases hbusy : p.shared.busy with
      | true =>
        rw [step_passOver hi hbusy]
        exact .passes hi hbusy
      | false =>
        have hopened : I (Cycle.opened e p.shared.world) :=
          hR.waits _ _ (hR.trans _ _ _ (hR.note _ _) (hR.note _ _)) hp.world
        obtain ⟨hs, hprogress⟩ := (hrest _ hopened).advance
        obtain ⟨hc, hshared⟩ := Call.hold_reaches hprogress
        rw [step_begin hi hbusy]
        simp only [hshared]
        exact .begins hi hbusy hs hc
    | running ms rest =>
      -- what it does up to its next pause was judged when it began
      have hrun : rest.Ensures R G Q p.shared.world :=
        hp.ensures _ (List.mem_of_getElem? hi) _ (hR.refl _)
      obtain ⟨hs, hprogress⟩ := hrun.advance
      obtain ⟨hc, hshared⟩ := Call.hold_reaches hprogress
      rw [step_goOn hi]
      simp only [hshared]
      exact .goesOn hi hs hc
    | ended outcome =>
      have hidle : ∀ c, p.calls[i]? = some c → c.outcome?.isSome := fun c hc => by
        cases hi.symm.trans hc; rfl
      rw [step_of_idle hidle]
      exact .idle hidle

/-- How many calls of a kind there are once one of them has changed. -/
theorem countP_set_add {calls : List (Call σ)} {i : Nat} {c : Call σ} (hi : calls[i]? = some c)
    (kind : Call σ → Bool) (c' : Call σ) :
    (calls.set i c').countP kind + (kind c).toNat = calls.countP kind + (kind c').toNat := by
  obtain ⟨h, hget⟩ := List.getElem?_eq_some_iff.1 hi
  have hpos : kind c = true → 0 < calls.countP kind := fun hc =>
    List.countP_pos_iff.2 ⟨c, List.mem_of_getElem? hi, hc⟩
  rw [List.countP_set h, hget]
  cases hc : kind c with
  | false => cases kind c' <;> simp
  | true =>
    have hone := hpos hc
    cases kind c' <;> simp <;> omega

/-- Two calls that run the checks are one call. -/
theorem Sound.unique (hp : p.Sound I R G Q) {i j : Nat} {c c' : Call σ}
    (hi : p.calls[i]? = some c) (hc : c.isRunning = true) (hj : p.calls[j]? = some c')
    (hc' : c'.isRunning = true) : i = j := by
  by_contra hij
  -- without the first of the two there would still be one, yet the flag allows for no more
  have hless := countP_set_add hi Call.isRunning .fresh
  have hleft : 0 < (p.calls.set i .fresh).countP Call.isRunning := by
    refine List.countP_pos_iff.2 ⟨c', List.mem_of_getElem? (i := j) ?_, hc'⟩
    rw [List.getElem?_set_ne hij, hj]
  have hflag := hp.flag
  have hbusy := p.shared.busy.toNat_le
  simp [hc] at hless
  omega

/-- While the flag is down no call is running the checks. -/
theorem Sound.not_running (hp : p.Sound I R G Q) (hidle : p.shared.busy = false) {c : Call σ}
    (hc : c ∈ p.calls) : c.isRunning = false := by
  have hnone : p.calls.countP Call.isRunning = 0 := by rw [hp.flag, hidle]; rfl
  simpa using List.countP_eq_zero.1 hnone c hc

/-- Once all calls have ended the flag is down. -/
theorem Sound.idle_of_ended (hp : p.Sound I R G Q) (hended : ∀ c ∈ p.calls, c.outcome?.isSome) :
    p.shared.busy = false := by
  have hnone : p.calls.countP Call.isRunning = 0 := by
    refine List.countP_eq_zero.2 fun c hc hrun => ?_
    cases c with
    | fresh => cases hrun
    | running ms rest => cases hended _ hc
    | ended outcome => cases hrun
  rw [hp.flag] at hnone
  exact Bool.toNat_eq_zero.1 hnone

/-- Where a call is left after the turn of another. -/
theorem mem_set_cases {calls : List (Call σ)} {i : Nat} {c x : Call σ} (hx : x ∈ calls.set i c) :
    x = c ∨ ∃ j, j ≠ i ∧ calls[j]? = some x := by
  obtain ⟨j, hj⟩ := List.getElem?_of_mem hx
  by_cases hij : i = j
  · subst hij
    rw [List.getElem?_set'] at hj
    exact .inl (by simp at hj; exact hj.2.symm)
  · rw [List.getElem?_set_ne hij] at hj
    exact .inr ⟨j, Ne.symm hij, hj⟩

theorem Turn.world {i : Nat} {p' : Pool σ} (hR : e.Admits I R G) (hI : I p.shared.world)
    (h : Turn e R G Q p i p') : I p'.shared.world := by
  have hnotes : ∀ n n' s, I s → I (e.note n (e.note n' s)) := fun n n' s hs =>
    hR.waits _ _ (hR.trans _ _ _ (hR.note n' s) (hR.note n _)) hs
  have hsteps : ∀ s s', Relation.ReflTransGen G s s' → I s → I s' := by
    intro s s' hs hI
    induction hs with
    | refl => exact hI
    | tail _ hstep ih => exact hR.works _ _ hstep ih
  cases h with
  | idle => exact hI
  | passes => exact hnotes _ _ _ hI
  | begins _ _ hs => exact hsteps _ _ hs (hnotes _ _ _ hI)
  | goesOn _ hs => exact hsteps _ _ hs hI

/-- **A turn leaves a sound pool sound.** -/
theorem Turn.sound {i : Nat} {p' : Pool σ} (hR : e.Admits I R G)
    (hp : p.Sound I R G Q) (h : Turn e R G Q p i p') : p'.Sound I R G Q := by
  have hworld := h.world hR hp.world
  cases h with
  | idle => exact hp
  | passes hi hbusy =>
    have hcount := countP_set_add hi Call.isRunning (.ended .skipped)
    refine ⟨by simpa [hp.flag, hbusy] using hcount, fun x hx => ?_, hworld⟩
    obtain rfl | ⟨j, -, hj⟩ := mem_set_cases hx
    · trivial
    · -- a call that waits meanwhile puts up with the two notes
      have hpass : R p.shared.world (Cycle.passed e p.shared.world) :=
        hR.trans _ _ _ (hR.note _ _) (hR.note _ _)
      exact (hp.ensures x (List.mem_of_getElem? hj)).rely fun s hs => hR.trans _ _ _ hpass hs
  | @begins c s hi hidle hs hc =>
    have hcount := countP_set_add hi Call.isRunning c
    refine ⟨by simpa [hp.flag, hidle] using hcount, fun x hx => ?_, hworld⟩
    obtain rfl | ⟨j, -, hj⟩ := mem_set_cases hx
    · exact hc.ensures
    · exact .of_not_running (hp.not_running hidle (List.mem_of_getElem? hj))
  | @goesOn ms rest c s hi hs hc =>
    have hcount := countP_set_add hi Call.isRunning c
    -- the call holds the flag, so it is the only one that is running the checks
    have hothers : ∀ j x, j ≠ i → p.calls[j]? = some x → x.isRunning = false := by
      intro j x hj hx
      by_contra hrun
      exact hj (hp.unique hx (by simpa using hrun) hi rfl)
    have hone : p.calls.countP Call.isRunning = 1 := by
      have hpos : 0 < p.calls.countP Call.isRunning :=
        List.countP_pos_iff.2 ⟨_, List.mem_of_getElem? hi, rfl⟩
      have hflag := hp.flag
      have hbusy := p.shared.busy.toNat_le
      omega
    refine ⟨?_, fun x hx => ?_, hworld⟩
    · simpa [hone, Nat.add_comm] using hcount
    · obtain rfl | ⟨j, hj, hx⟩ := mem_set_cases hx
      · exact hc.ensures
      · exact .of_not_running (hothers j x hj hx)

theorem sound_ofFresh (n : Nat) {s : σ} (hs : I s) : (ofFresh n ⟨false, s⟩).Sound I R G Q := by
  refine ⟨?_, ?_, hs⟩
  · simp [ofFresh, List.countP_replicate]
  · intro c hc
    obtain rfl : c = .fresh := List.eq_of_mem_replicate hc
    trivial

/-- **However the calls are interleaved, the pool is sound after every turn.** -/
theorem sound_steps (hR : e.Admits I R G)
    (hrest : ∀ s, I s → ((Cycle.rest e.home policy).within e).Ensures R G Q s) (order : List Nat)
    (hp : p.Sound I R G Q) : (p.steps e policy order).Sound I R G Q := by
  induction order generalizing p with
  | nil => exact hp
  | cons i order ih =>
    exact ih ((step_turn hR hrest hp i).sound hR hp)

/-- Over any number of turns the world changes only as the judgement and the record allow. -/
theorem world_steps (hR : e.Admits I R G) (hnoteG : ∀ n s, G s (e.note n s))
    (hrest : ∀ s, I s → ((Cycle.rest e.home policy).within e).Ensures R G Q s) (order : List Nat)
    (hp : p.Sound I R G Q) :
    Relation.ReflTransGen G p.shared.world (p.steps e policy order).shared.world := by
  induction order generalizing p with
  | nil => exact .refl
  | cons i order ih =>
    have hturn := step_turn hR hrest hp i
    have hrest' := ih (hturn.sound hR hp)
    refine .trans ?_ hrest'
    generalize p.step e policy i = p' at hturn
    cases hturn with
    | idle => exact .refl
    | passes => exact .tail (.tail .refl (hnoteG _ _)) (hnoteG _ _)
    | begins _ _ hs => exact .head (hnoteG _ _) (.head (hnoteG _ _) hs)
    | goesOn _ hs => exact hs

end Pool

end Upkeep
