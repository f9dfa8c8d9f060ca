import Upkeep.Heartbeat.FanOut
import Upkeep.Process.Together
import Upkeep.Rehearsal.Rounds

/-!
# Calls of a fan-out side by side

The `Traffic` of a fan-out is all the calls that were ever made of it, in the order in which they
began, on one state.  Calls begin, go on when their pauses end, and time passes, in any order; and
the state may change in other ways as well.

* `Traffic.step`, `Traffic.run` : what becomes of the traffic.
* `Traffic.step_resumes`, `Traffic.step_resumes_cases` : which call goes on, and how.
* `Traffic.exists_run_sideBySide` : **calls that run side by side are such traffic**.
-/

namespace Upkeep

variable {σ : Type}

/-- A call of a fan-out. -/
structure Sending (σ : Type) where
  /-- What is to be sent. -/
  order : RoundOrder
  /-- The instant at which the call began. -/
  begun : Nat
  /-- The number of its message. -/
  number : UInt64
  /-- Where it stands. -/
  slot : Slot σ (Reply Responses)

/-- The message of a call. -/
def Sending.ping (c : Sending σ) : Ping := ⟨c.number, c.order.database⟩

/-- All calls of a fan-out. -/
structure Traffic (σ : Type) where
  /-- The instant. -/
  now : Nat := 0
  /-- The state that the calls share. -/
  state : σ
  /-- The calls, in the order in which they began. -/
  calls : List (Sending σ) := []

/-- Something that happens to the traffic. -/
inductive Event (σ : Type)
  /-- A call begins, and runs up to its first pause. -/
  | begins (order : RoundOrder)
  /-- A call goes on whose pause ends now, up to its next pause. -/
  | resumes (i : Nat)
  /-- Time passes, but no pause ends on the way. -/
  | passes (ms : Nat)
  /-- The state changes otherwise. -/
  | elsewhere (change : σ → σ)

/-- The order of a call that begins. -/
def Event.order? : Event σ → Option RoundOrder
  | begins order => some order
  | _ => none

/-- What happens elsewhere takes no number. -/
def Event.Spares (next : σ → UInt64) : Event σ → Prop
  | elsewhere change => ∀ s, next (change s) = next s
  | _ => True

/-- A call that waits does so at least up to an instant. -/
def Slot.waitsUntil {α : Type} (instant : Nat) : Slot σ α → Bool
  | waiting wake _ => instant ≤ wake
  | ended _ _ => true

namespace Slot

variable {α : Type}

/-- Of the processes whose pauses end at an instant, one goes on, if there are any. -/
theorem resume_cases (now : Nat) (slots : List (Slot σ α)) (s : σ) :
    resume now slots s = (slots, s) ∨ ∃ i rest, slots[i]? = some (.waiting now rest) ∧
      resume now slots s =
        (slots.set i (.ofProgress now (rest.advance s).1), (rest.advance s).2) := by
  induction slots with
  | nil => exact .inl rfl
  | cons slot slots ih =>
    cases slot with
    | ended at_ a =>
      unfold resume
      obtain hsame | ⟨i, rest, hget, hresume⟩ := ih
      · rw [hsame]
        exact .inl rfl
      · rw [hresume]
        exact .inr ⟨i + 1, rest, hget, rfl⟩
    | waiting wake p =>
      unfold resume
      split
      · rename_i hwake
        subst hwake
        exact .inr ⟨0, p, rfl, rfl⟩
      · obtain hsame | ⟨i, rest, hget, hresume⟩ := ih
        · rw [hsame]
          exact .inl rfl
        · rw [hresume]
          exact .inr ⟨i + 1, rest, hget, rfl⟩

/-- No pause ends before an instant just if the earliest one does not. -/
theorem waitsUntil_iff_firstWake? {slots : List (Slot σ α)} {now : Nat} :
    (∀ slot ∈ slots, slot.waitsUntil now = true) ↔
      ∀ wake, firstWake? slots = some wake → now ≤ wake := by
  induction slots with
  | nil => simp [firstWake?]
  | cons slot slots ih =>
    rw [List.forall_mem_cons, ih]
    cases slot with
    | ended at_ a => simp [firstWake?, waitsUntil]
    | waiting wake p =>
      cases hfirst : firstWake? slots with
      | none => simp [firstWake?, waitsUntil, hfirst]
      | some other =>
        simp only [firstWake?, waitsUntil, hfirst, decide_eq_true_eq, Option.some.injEq,
          forall_eq', Nat.le_min]

theorem waitsUntil_zero (slot : Slot σ α) : slot.waitsUntil 0 = true := by
  cases slot with
  | ended at_ a => rfl
  | waiting wake rest => exact decide_eq_true (Nat.zero_le wake)

theorem waitsUntil_ofProgress (now : Nat) (progress : Progress σ α) :
    (ofProgress now progress).waitsUntil now = true := by
  cases progress with
  | ended a => rfl
  | waiting ms rest => exact decide_eq_true (Nat.le_add_right now ms)

end Slot

namespace Traffic

/-- What becomes of the traffic.  What cannot happen makes no difference. -/
def step (f : FanOut σ) (t : Traffic σ) : Event σ → Traffic σ
  | .begins order =>
    let x := (f.send order.database order.peers order.timeoutMs).advance t.state
    { t with
      state := x.2
      calls := t.calls ++ [⟨order, t.now, (f.takeId t.state).1, .ofProgress t.now x.1⟩] }
  | .resumes i =>
    match t.calls[i]? with
    | some ⟨order, begun, number, .waiting wake rest⟩ =>
      if wake = t.now then
        let x := rest.advance t.state
        { t with
          state := x.2
          calls := t.calls.set i ⟨order, begun, number, .ofProgress t.now x.1⟩ }
      else t
    | _ => t
  | .passes ms =>
    if t.calls.all fun c => c.slot.waitsUntil (t.now + ms) then { t with now := t.now + ms } else t
  | .elsewhere change => { t with state := change t.state }

/-- What becomes of the traffic after one thing and another. -/
def run (f : FanOut σ) (events : List (Event σ)) (t : Traffic σ) : Traffic σ :=
  events.foldl (step f) t

/-- A call whose pause ends now goes on. -/
theorem step_resumes {f : FanOut σ} {t : Traffic σ} {i : Nat} {c : Sending σ}
    {rest : Process σ (Reply Responses)} (hget : t.calls[i]? = some c)
    (hslot : c.slot = .waiting t.now rest) :
    t.step f (.resumes i) =
      { t with
        state := (rest.advance t.state).2
        calls := t.calls.set i { c with slot := .ofProgress t.now (rest.advance t.state).1 } } := by
  cases c
  subst hslot
  simp only [step, hget, if_true]

/-- No other call goes on. -/
theorem step_resumes_cases (f : FanOut σ) (t : Traffic σ) (i : Nat) :
    t.step f (.resumes i) = t ∨
      ∃ c rest, t.calls[i]? = some c ∧ c.slot = .waiting t.now rest := by
  unfold step
  dsimp only
  split
  · rename_i wake rest hget
    split
    · rename_i hwake
      exact .inr ⟨_, rest, hget, congrArg (Slot.waiting · rest) hwake⟩
    · exact .inl rfl
  · exact .inl rfl

/-- What a call keeps when it goes on, the list of all calls keeps. -/
theorem map_set {α : Type} {calls : List (Sending σ)} {i : Nat} {c c' : Sending σ}
    {g : Sending σ → α} (hget : calls[i]? = some c) (hc : g c' = g c) :
    (calls.set i c').map g = calls.map g := by
  obtain ⟨hi, rfl⟩ := List.getElem?_eq_some_iff.1 hget
  rw [List.map_set, hc, ← List.map_set, List.set_getElem_self]

theorem orders_step (f : FanOut σ) (event : Event σ) (t : Traffic σ) :
    (t.step f event).calls.map Sending.order =
      t.calls.map Sending.order ++ event.order?.toList := by
  cases event with
  | begins order => exact List.map_append
  | resumes i =>
    obtain hstep | ⟨c, rest, hget, hslot⟩ := step_resumes_cases f t i
    · rw [hstep]
      exact (List.append_nil _).symm
    · rw [step_resumes hget hslot, map_set hget (by rfl)]
      exact (List.append_nil _).symm
  | passes ms =>
    unfold step
    dsimp only
    split <;> exact (List.append_nil _).symm
  | elsewhere change => exact (List.append_nil _).symm

/-- The calls that were made, in the order in which they began. -/
theorem orders_run (f : FanOut σ) (events : List (Event σ)) (t : Traffic σ) :
    (run f events t).calls.map Sending.order =
      t.calls.map Sending.order ++ events.filterMap Event.order? := by
  induction events generalizing t with
  | nil => exact (List.append_nil _).symm
  | cons event rest ih =>
    rw [List.filterMap_cons]
    refine (ih (t.step f event)).trans ?_
    rw [orders_step, List.append_assoc]
    cases event.order? <;> rfl

/-- No pause has ended that its call did not notice. -/
def Prompt (t : Traffic σ) : Prop := ∀ c ∈ t.calls, c.slot.waitsUntil t.now = true

/-- Calls that begin one after another are processes that are started one after another. -/
theorem run_begins (f : FanOut σ) (orders : List RoundOrder) (t : Traffic σ) (hnow : t.now = 0) :
    let t' := run f (orders.map .begins) t
    let x := Slot.startAll
      (orders.map fun order => f.send order.database order.peers order.timeoutMs) t.state
    t'.now = 0 ∧ t'.calls.map Sending.slot = t.calls.map Sending.slot ++ x.1 ∧ t'.state = x.2 := by
  induction orders generalizing t with
  | nil => exact ⟨hnow, (List.append_nil _).symm, rfl⟩
  | cons order orders ih =>
    obtain ⟨hnow', hcalls, hstate⟩ := ih (t.step f (.begins order)) hnow
    refine ⟨hnow', hcalls.trans ?_, hstate⟩
    rw [step, List.map_append, List.append_assoc, hnow]
    rfl

/-- To let the first process go on is to let time pass up to then, and one call go on. -/
theorem exists_run_resume (f : FanOut σ) {t : Traffic σ} (ht : t.Prompt) {now : Nat}
    (hfirst : Slot.firstWake? (t.calls.map Sending.slot) = some now) :
    ∃ events : List (Event σ), (∀ next, ∀ event ∈ events, event.Spares next) ∧
      let t' := run f events t
      t'.Prompt ∧ (t'.calls.map Sending.slot, t'.state) =
        Slot.resume now (t.calls.map Sending.slot) t.state := by
  have hlater : t.now ≤ now :=
    Slot.waitsUntil_iff_firstWake?.1 (List.forall_mem_map.2 ht) now hfirst
  have hnone : ∀ c ∈ t.calls, c.slot.waitsUntil now = true :=
    List.forall_mem_map.1 (Slot.waitsUntil_iff_firstWake?.2 fun wake hwake =>
      Nat.le_of_eq (Option.some.inj (hfirst.symm.trans hwake)))
  have hpasses : t.step f (.passes (now - t.now)) = { t with now := now } := by
    rw [step, Nat.add_sub_cancel' hlater, if_pos (List.all_eq_true.2 hnone)]
  obtain hsame | ⟨i, rest, hget, hresume⟩ :=
    Slot.resume_cases now (t.calls.map Sending.slot) t.state
  · refine ⟨[.passes (now - t.now)], fun next => List.forall_mem_singleton.2 trivial, ?_⟩
    rw [hsame, run, List.foldl_cons, hpasses]
    exact ⟨hnone, rfl⟩
  · rw [List.getElem?_map] at hget
    obtain ⟨c, hget, hslot⟩ := Option.map_eq_some_iff.1 hget
    refine ⟨[.passes (now - t.now), .resumes i], fun next =>
      List.forall_mem_cons.2 ⟨trivial, List.forall_mem_singleton.2 trivial⟩, ?_⟩
    rw [hresume, run, List.foldl_cons, hpasses, List.foldl_cons, List.foldl_nil,
      step_resumes (t := { t with now := now }) hget hslot]
    refine ⟨fun c' hc' => ?_, by rw [List.map_set]⟩
    obtain hc' | rfl := List.mem_or_eq_of_mem_set hc'
    · exact hnone c' hc'
    · exact Slot.waitsUntil_ofProgress now _

/-- Processes that go on side by side are such traffic. -/
theorem exists_run_resumeAll (f : FanOut σ) (steps : Nat) {t : Traffic σ} (ht : t.Prompt) :
    ∃ events : List (Event σ), (∀ next, ∀ event ∈ events, event.Spares next) ∧
      let t' := run f events t
      (t'.calls.map Sending.slot, t'.state) =
        Slot.resumeAll steps (t.calls.map Sending.slot) t.state := by
  induction steps generalizing t with
  | zero => exact ⟨[], nofun, rfl⟩
  | succ steps ih =>
    unfold Slot.resumeAll
    split
    · exact ⟨[], nofun, rfl⟩
    · rename_i now hfirst
      obtain ⟨events, hspares, ht', hresume⟩ := exists_run_resume f ht hfirst
      obtain ⟨events', hspares', hresumeAll⟩ := ih ht'
      refine ⟨events ++ events', fun next =>
        List.forall_mem_append.2 ⟨hspares next, hspares' next⟩, ?_⟩
      rw [← hresume, run, List.foldl_append]
      exact hresumeAll

/-- **Calls that begin at one instant and run side by side are such traffic.** -/
theorem exists_run_sideBySide (f : FanOut σ) (orders : List RoundOrder) (steps : Nat) (s : σ) :
    ∃ events : List (Event σ), (∀ next, ∀ event ∈ events, event.Spares next) ∧
      let x := Slot.startAll
        (orders.map fun order => f.send order.database order.peers order.timeoutMs) s
      let t := run f events { state := s }
      (t.calls.map Sending.slot, t.state) = Slot.resumeAll steps x.1 x.2 := by
  obtain ⟨hnow, hcalls, hstate⟩ := run_begins f orders { state := s } rfl
  have hprompt : (run f (orders.map .begins) { state := s }).Prompt := fun c _ => by
    rw [hnow]
    exact c.slot.waitsUntil_zero
  obtain ⟨events, hspares, hresumeAll⟩ := exists_run_resumeAll f steps hprompt
  have hbegins (next : σ → UInt64) : ∀ event ∈ orders.map Event.begins, event.Spares next := by
    rintro _ hevent
    obtain ⟨order, -, rfl⟩ := List.mem_map.1 hevent
    trivial
  refine ⟨orders.map .begins ++ events, fun next =>
    List.forall_mem_append.2 ⟨hbegins next, hspares next⟩, ?_⟩
  dsimp only at hcalls
  rw [List.map_nil, List.nil_append] at hcalls
  rw [hcalls, hstate] at hresumeAll
  rw [run, List.foldl_append]
  exact hresumeAll

end Traffic

end Upkeep
