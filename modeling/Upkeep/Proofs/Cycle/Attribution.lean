import Mathlib.Logic.Function.Basic
import Upkeep.Proofs.Cycle.Exclusion

/-!
# What each of several calls asks for

Calls of a cycle that take turns write their requests down in one list, and `Pool.ownOf` picks out
those of one call.  As long as the others only pass over, a call finds what it has asked for at the
end of that list when it goes on.  So a judgement on what a cycle asks for holds of every call.

* `Pool.attributed` : **a call that did not pass over asked for what a cycle was judged to ask for**,
  in whatever order the calls take turns.
-/

namespace Upkeep

variable {σ δ : Type}

/-- The requests of a kind that were written down. -/
def Watched.askedOf (kind : Request → Bool) (w : Watched σ) : List Request := w.asked.filter kind

theorem Watched.askedOf_append (kind : Request → Bool) {w w' : Watched σ} {new : List Request}
    (h : w'.asked = w.asked ++ new) : w'.askedOf kind = w.askedOf kind ++ new.filter kind := by
  rw [askedOf, h, List.filter_append, askedOf]

/-- What happens between two states leaves what `view` shows as it is, and nothing of a kind is asked
for meanwhile. -/
structure Watched.Bystands (kind : Request → Bool) (view : σ → δ) (w w' : Watched σ) : Prop where
  /-- The same is shown. -/
  view_eq : view w'.now = view w.now
  /-- Nothing of the kind was asked for. -/
  askedOf_eq : w'.askedOf kind = w.askedOf kind

theorem Watched.Bystands.refl (kind : Request → Bool) (view : σ → δ) (w : Watched σ) :
    w.Bystands kind view w := ⟨rfl, rfl⟩

theorem Watched.Bystands.trans {kind : Request → Bool} {view : σ → δ} {w w' w'' : Watched σ}
    (h : w.Bystands kind view w') (h' : w'.Bystands kind view w'') : w.Bystands kind view w'' :=
  ⟨h'.view_eq.trans h.view_eq, h'.askedOf_eq.trans h.askedOf_eq⟩

/-- A judgement on what a cycle asks for of a kind, that puts up with what other calls do. -/
structure Surroundings.Accounted (e : Surroundings σ) (policy : DemotionPolicy)
    (kind : Request → Bool) (view : σ → δ) (J : Watched σ → Prop) (Good : List Request → Prop) :
    Prop where
  /-- A call that begins asks for nothing of the kind by that. -/
  openNotes : ∀ r ∈ Cycle.openNotes e.home, kind r = false
  /-- Neither does a call that passes over. -/
  passNotes : ∀ r ∈ Cycle.passNotes e.home, kind r = false
  /-- An entry on record does not change what is shown. -/
  note : ∀ n s, view (e.note n s) = view s
  /-- An entry of another kind keeps the invariant. -/
  keeps : ∀ n w, kind (.note n) = false → J w → J (e.watched.note n w)
  /-- Every change that a cycle makes keeps it too, and what the cycle asks for is good. -/
  rest : ∀ w, J w → ((Cycle.rest e.home policy).within e.watched).Ensures
    (Watched.Bystands kind view) (fun w w' => J w → J w')
    (fun _ w' => ∃ own, w'.askedOf kind = w.askedOf kind ++ own ∧ Good own) w

namespace Surroundings

variable {e : Surroundings σ} {policy : DemotionPolicy} {kind : Request → Bool} {view : σ → δ}
  {J : Watched σ → Prop} {Good : List Request → Prop}

/-- An entry of another kind keeps the invariant and leaves everything else as it is. -/
theorem Accounted.noted (he : e.Accounted policy kind view J Good) {n : Note}
    (hn : kind (.note n) = false) {w : Watched σ} (hw : J w) :
    J (e.watched.note n w) ∧ w.Bystands kind view (e.watched.note n w) := by
  refine ⟨he.keeps n w hn hw, he.note n w.now, ?_⟩
  rw [Watched.askedOf_append kind (w := w) rfl, List.filter_cons_of_neg (by simp [hn]),
    List.filter_nil, List.append_nil]

/-- So does a call by beginning. -/
theorem Accounted.opened (he : e.Accounted policy kind view J Good) {w : Watched σ} (hw : J w) :
    J (Cycle.opened e.watched w) ∧ w.Bystands kind view (Cycle.opened e.watched w) := by
  obtain ⟨hworld, hstarted⟩ := he.noted (he.openNotes _ (List.mem_cons_self ..)) hw
  obtain ⟨hworld', hcounted⟩ := he.noted
    (he.openNotes _ (List.mem_cons_of_mem _ (List.mem_cons_self ..))) hworld
  exact ⟨hworld', hstarted.trans hcounted⟩

/-- So does a call by passing over. -/
theorem Accounted.passed (he : e.Accounted policy kind view J Good) {w : Watched σ} (hw : J w) :
    J (Cycle.passed e.watched w) ∧ w.Bystands kind view (Cycle.passed e.watched w) := by
  obtain ⟨hworld, hskipped⟩ := he.noted (he.passNotes _ (List.mem_cons_self ..)) hw
  obtain ⟨hworld', hcounted⟩ := he.noted
    (he.passNotes _ (List.mem_cons_of_mem _ (List.mem_cons_self ..))) hworld
  exact ⟨hworld', hskipped.trans hcounted⟩

end Surroundings

/-- What a call that has asked for `own` will have asked for in the end is good. -/
inductive Call.Owes (kind : Request → Bool) (view : σ → δ) (J : Watched σ → Prop)
    (Good : List Request → Prop) : Call (Watched σ) → Watched σ → List Request → Prop
  /-- A call that has not begun has asked for nothing. -/
  | fresh (w : Watched σ) : Owes kind view J Good .fresh w []
  /-- A call that is running the checks will add to what it has asked for. -/
  | running {ms : Nat} {rest : Process (Watched σ) CycleOutcome} {w : Watched σ}
      {own : List Request} (before : List Request) (hasked : w.askedOf kind = before ++ own)
      (hrest : ∀ w', w.Bystands kind view w' → rest.Ensures (Watched.Bystands kind view)
        (fun w w' => J w → J w')
        (fun _ w'' => ∃ own', w''.askedOf kind = before ++ own' ∧ Good own') w') :
      Owes kind view J Good (.running ms rest) w own
  /-- A call that has passed over has asked for nothing. -/
  | skipped (w : Watched σ) : Owes kind view J Good (.ended .skipped) w []
  /-- A call that has ended otherwise has asked for what is good. -/
  | ended (outcome : CycleOutcome) (w : Watched σ) {own : List Request} (h : Good own) :
      Owes kind view J Good (.ended outcome) w own

section Owes

variable {kind : Request → Bool} {view : σ → δ} {J : Watched σ → Prop}
  {Good : List Request → Prop} {c : Call (Watched σ)} {w w' : Watched σ} {own : List Request}

theorem Call.Owes.eq_nil (h : Call.Owes kind view J Good .fresh w own) : own = [] := by
  cases h
  rfl

theorem Call.Owes.good {outcome : CycleOutcome}
    (h : Call.Owes kind view J Good (.ended outcome) w own) (hran : outcome ≠ .skipped) :
    Good own := by
  cases h with
  | skipped => exact absurd rfl hran
  | ended _ _ hgood => exact hgood

/-- A call puts up with what happens while it waits. -/
theorem Call.Owes.bystands (h : c.Owes kind view J Good w own) (hw : w.Bystands kind view w') :
    c.Owes kind view J Good w' own := by
  cases h with
  | fresh => exact .fresh w'
  | running before hasked hrest =>
    exact .running before (hw.askedOf_eq.trans hasked) fun w'' hw'' => hrest w'' (hw.trans hw'')
  | skipped => exact .skipped w'
  | ended outcome _ hgood => exact .ended outcome w' hgood

/-- What others do does not matter to a call that is not running the checks. -/
theorem Call.Owes.of_not_running (h : c.Owes kind view J Good w own)
    (hc : c.isRunning = false) (w' : Watched σ) : c.Owes kind view J Good w' own := by
  cases h with
  | fresh => exact .fresh w'
  | running => exact nomatch hc
  | skipped => exact .skipped w'
  | ended outcome _ hgood => exact .ended outcome w' hgood

/-- Where a call that runs the checks comes to, it still owes what it has not asked for. -/
theorem Call.Reaches.owes {before : List Request}
    (h : c.Reaches (Watched.Bystands kind view) (fun w w' => J w → J w')
      (fun _ w' => ∃ own', w'.askedOf kind = before ++ own' ∧ Good own') w)
    (hasked : w.askedOf kind = before ++ own) : c.Owes kind view J Good w own := by
  cases c with
  | fresh => exact h.elim
  | running ms rest => exact .running before hasked h
  | ended outcome =>
    obtain ⟨own', hown, hgood⟩ := h
    obtain rfl : own' = own := List.append_cancel_left (hown.symm.trans hasked)
    exact .ended outcome w hgood

/-- Steps that each keep an invariant keep it together. -/
theorem Watched.keeps_of_steps (h : Relation.ReflTransGen (fun w w' => J w → J w') w w')
    (hw : J w) : J w' := by
  induction h with
  | refl => exact hw
  | tail _ hstep ih => exact hstep ih

end Owes

namespace Pool

/-- Of the requests of a ledger, those of one call that are of a kind. -/
def ownOf (kind : Request → Bool) (entries : List (Nat × Request)) (i : Nat) : List Request :=
  ((entries.filter fun entry => entry.1 = i).map Prod.snd).filter kind

theorem ownOf_append (kind : Request → Bool) (entries entries' : List (Nat × Request)) (i : Nat) :
    ownOf kind (entries ++ entries') i = ownOf kind entries i ++ ownOf kind entries' i := by
  simp only [ownOf, List.filter_append, List.map_append]

theorem ownOf_turn (kind : Request → Bool) (new : List Request) (i j : Nat) :
    ownOf kind (new.map (i, ·)) j = if j = i then new.filter kind else [] := by
  by_cases h : j = i
  · subst h
    simp [ownOf, List.filter_map, Function.comp_def]
  · simp [ownOf, List.filter_map, Function.comp_def, h, Ne.symm h]

/-- How often a call has made a request of the kind. -/
theorem count_ownOf {kind : Request → Bool} {r : Request} (hr : kind r = true)
    (entries : List (Nat × Request)) (i : Nat) :
    (ownOf kind entries i).count r = entries.count (i, r) := by
  induction entries with
  | nil => rfl
  | cons entry rest ih =>
    obtain ⟨j, r'⟩ := entry
    have hcons : ownOf kind ((j, r') :: rest) i =
        ownOf kind [(j, r')] i ++ ownOf kind rest i := ownOf_append kind [(j, r')] rest i
    rw [hcons, List.count_append, ih, List.count_cons, Nat.add_comm]
    refine congrArg _ ?_
    by_cases hj : j = i <;> by_cases hr' : r' = r <;> simp [ownOf, hj, hr', hr]

/-- The invariant holds, and every call that has asked for its `own` owes what is left. -/
structure Attributed (kind : Request → Bool) (view : σ → δ) (J : Watched σ → Prop)
    (Good : List Request → Prop) (q : Pool (Watched σ)) (own : Nat → List Request) : Prop where
  /-- The invariant holds. -/
  world : J q.shared.world
  /-- What is left of each call is as it should be. -/
  owes : ∀ i (c : Call (Watched σ)), q.calls[i]? = some c →
    c.Owes kind view J Good q.shared.world (own i)

variable {e : Surroundings σ} {policy : DemotionPolicy} {kind : Request → Bool} {view : σ → δ}
  {J : Watched σ → Prop} {Good : List Request → Prop} {q : Pool (Watched σ)}
  {own : Nat → List Request}

theorem attributed_ofFresh (n : Nat) {w : Watched σ} (hw : J w) :
    (ofFresh n ⟨false, w⟩).Attributed kind view J Good fun _ => [] := by
  refine ⟨hw, fun i c hc => ?_⟩
  obtain rfl : c = .fresh := List.eq_of_mem_replicate (List.mem_of_getElem? hc)
  exact .fresh w

/-- One call has changed, and the others owe what they did. -/
theorem Attributed.set {shared : Shared (Watched σ)} {i : Nat} {c : Call (Watched σ)}
    {own' : List Request} (hworld : J shared.world)
    (hc : c.Owes kind view J Good shared.world own')
    (hothers : ∀ j x, j ≠ i → q.calls[j]? = some x → x.Owes kind view J Good shared.world (own j)) :
    Attributed kind view J Good ⟨shared, q.calls.set i c⟩ (Function.update own i own') := by
  refine ⟨hworld, fun j x hx => ?_⟩
  by_cases hj : j = i
  · subst hj
    rw [List.getElem?_set'] at hx
    simp only [if_true, Functor.map, Option.map_eq_some_iff] at hx
    obtain ⟨_, _, rfl⟩ := hx
    rwa [Function.update_self]
  · rw [List.getElem?_set_ne (Ne.symm hj)] at hx
    rw [Function.update_of_ne hj]
    exact hothers j x hj hx

/-- A call that runs the checks beside no other goes on up to a pause, or to its end. -/
theorem Attributed.advance (h : q.Attributed kind view J Good own) {i : Nat}
    (hothers : ∀ j (c : Call (Watched σ)), j ≠ i → q.calls[j]? = some c → c.isRunning = false)
    {p : Process (Watched σ) CycleOutcome} {w : Watched σ} {before own' : List Request} (hw : J w)
    (hp : p.Ensures (Watched.Bystands kind view) (fun w w' => J w → J w')
      (fun _ w' => ∃ own', w'.askedOf kind = before ++ own' ∧ Good own') w)
    (hasked : (Call.hold (p.advance w)).2.world.askedOf kind = before ++ own') :
    Attributed kind view J Good
      ⟨(Call.hold (p.advance w)).2, q.calls.set i (Call.hold (p.advance w)).1⟩
      (Function.update own i own') := by
  obtain ⟨hsteps, hprogress⟩ := hp.advance
  obtain ⟨hreaches, hshared⟩ := Call.hold_reaches hprogress
  have hworld : (Call.hold (p.advance w)).2.world = (p.advance w).2 := by rw [hshared]
  rw [hworld] at hasked
  refine .set ?_ ?_ fun j c hj hc => ?_
  · rw [hworld]
    exact Watched.keeps_of_steps hsteps hw
  · rw [hworld]
    exact hreaches.owes hasked
  · exact (h.owes j c hc).of_not_running (hothers j c hj hc) _

/-- A call that has not begun passes over, or runs the checks up to a pause or to their end. -/
theorem Attributed.begin (he : e.Accounted policy kind view J Good) (hsound : q.WatchedSound)
    (h : q.Attributed kind view J Good own) {i : Nat} (hi : q.calls[i]? = some .fresh)
    {new : List Request} (hasked : (q.step e.watched policy i).shared.world.askedOf kind =
      q.shared.world.askedOf kind ++ new) :
    (q.step e.watched policy i).Attributed kind view J Good (Function.update own i new) := by
  cases hbusy : q.shared.busy with
  | true =>
    -- the call that is running the checks meanwhile puts up with that
    obtain ⟨hworld, hbystands⟩ := he.passed h.world
    rw [step_passOver hi hbusy] at hasked ⊢
    rw [List.self_eq_append_right.1 (hbystands.askedOf_eq.symm.trans hasked)]
    exact .set hworld (.skipped _) fun j x _ hx => (h.owes j x hx).bystands hbystands
  | false =>
    obtain ⟨hworld, hbystands⟩ := he.opened h.world
    rw [step_begin hi hbusy] at hasked ⊢
    refine h.advance (fun j c _ hc => ?_) hworld (he.rest _ hworld) ?_
    · exact hsound.not_running hbusy (List.mem_of_getElem? hc)
    · rw [hbystands.askedOf_eq]
      exact hasked

/-- **At its turn a call asks for some of what it owes**, and the others owe what they did. -/
theorem Attributed.step (he : e.Accounted policy kind view J Good) (hsound : q.WatchedSound)
    (h : q.Attributed kind view J Good own) (i : Nat) :
    ∃ new, (q.step e.watched policy i).shared.world.asked = q.shared.world.asked ++ new ∧
      (q.step e.watched policy i).Attributed kind view J Good
        (Function.update own i (own i ++ new.filter kind)) := by
  obtain ⟨new, hnew, -⟩ := (watched_turn e policy hsound i).asked hsound
  refine ⟨new, hnew, ?_⟩
  have hasked := Watched.askedOf_append kind hnew
  have hidle : (∀ c, q.calls[i]? = some c → c.outcome?.isSome) →
      (q.step e.watched policy i).Attributed kind view J Good
        (Function.update own i (own i ++ new.filter kind)) := by
    intro hended
    rw [step_of_idle hended] at hasked ⊢
    rw [List.self_eq_append_right.1 hasked, List.append_nil, Function.update_eq_self]
    exact h
  cases hi : q.calls[i]? with
  | none => exact hidle fun c hc => absurd (hi.symm.trans hc) nofun
  | some c =>
    have howes := h.owes i c hi
    cases c with
    | fresh =>
      rw [howes.eq_nil, List.nil_append]
      exact h.begin he hsound hi hasked
    | running ms rest =>
      rw [step_goOn hi] at hasked ⊢
      generalize own i = mine at howes
      cases howes with
      | running before hbefore hrest =>
        refine h.advance (fun j c hj hc => ?_) h.world (hrest _ (.refl kind view _)) ?_
        · by_contra hrun
          exact hj (hsound.unique hc (by simpa using hrun) hi rfl)
        · rw [← List.append_assoc, ← hbefore]
          exact hasked
    | ended outcome =>
      refine hidle fun c hc => ?_
      cases hi.symm.trans hc
      rfl

/-- **A call that did not pass over asked for what a cycle was judged to ask for**, in whatever order
the calls take turns, and the invariant holds after every turn. -/
theorem attributed (he : e.Accounted policy kind view J Good) {n : Nat} {w : Watched σ} (hw : J w)
    (order : List Nat) :
    let q := ofFresh n ⟨false, w⟩
    J (q.steps e.watched policy order).shared.world ∧
      ∀ i outcome, (q.steps e.watched policy order).calls[i]? = some (.ended outcome) →
        outcome ≠ .skipped → Good (ownOf kind (ledger e policy order q) i) := by
  have hsteps : ∀ {q : Pool (Watched σ)} {own : Nat → List Request}, q.WatchedSound →
      q.Attributed kind view J Good own → (q.steps e.watched policy order).Attributed kind view J
        Good fun i => own i ++ ownOf kind (ledger e policy order q) i := by
    induction order with
    | nil => exact fun _ h => by simpa [ledger, ownOf, steps] using h
    | cons i order ih =>
      intro q own hsound h
      obtain ⟨new, hnew, hstep⟩ := h.step he hsound i
      have hrest := ih (watched_sound e policy hsound i) hstep
      rw [steps_cons]
      refine (congrArg _ (funext fun j => ?_)).mp hrest
      rw [ledger, hnew, List.drop_left, ownOf_append, ownOf_turn, Function.update_apply]
      split
      · subst_vars
        rw [List.append_assoc]
      · rfl
  intro q
  have hend := hsteps (sound_ofFresh n trivial) (attributed_ofFresh n hw)
  refine ⟨hend.world, fun i outcome hi hran => ?_⟩
  exact (hend.owes i _ hi).good hran

end Pool

end Upkeep
