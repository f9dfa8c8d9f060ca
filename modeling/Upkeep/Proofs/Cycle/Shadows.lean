import Upkeep.Cycle.Call
import Upkeep.Proofs.Watched

/-!
# Watched calls of a cycle

Calls of a cycle that run in surroundings that write the requests down (`Surroundings.watched`) do
what they do in the surroundings themselves: `Pool.shadows_steps` says that whatever the order of
their turns, both pools stand at the same point.
-/

namespace Upkeep

variable {σ : Type}

/-- What is shared, without the requests. -/
def Shared.bare (s : Shared (Watched σ)) : Shared σ := ⟨s.busy, s.world.now⟩

/-- Both calls stand at the same point. -/
inductive Call.Shadows : Call (Watched σ) → Call σ → Prop
  /-- Neither has begun. -/
  | fresh : Shadows .fresh .fresh
  /-- Both are running the checks and wait. -/
  | running {ms : Nat} {p : Process (Watched σ) CycleOutcome} {q : Process σ CycleOutcome}
      (h : ∀ w, Process.Shadows w p q) : Shadows (.running ms p) (.running ms q)
  /-- Both have ended. -/
  | ended (outcome : CycleOutcome) : Shadows (.ended outcome) (.ended outcome)

namespace Call

theorem Shadows.hold {p : Progress (Watched σ) CycleOutcome} {q : Progress σ CycleOutcome}
    (h : p.Shadows q) (w : Watched σ) :
    (hold (p, w)).1.Shadows (hold (q, w.now)).1 ∧
      (hold (q, w.now)).2 = (hold (p, w)).2.bare := by
  cases h with
  | ended outcome => exact ⟨.ended outcome, rfl⟩
  | waiting h => exact ⟨.running h, rfl⟩

/-- A turn of a watched call is a turn of the call. -/
theorem Shadows.step {e : Surroundings σ} {policy : DemotionPolicy} {c : Call (Watched σ)}
    {c' : Call σ} (h : c.Shadows c') (s : Shared (Watched σ)) :
    (c.step e.watched policy s).1.Shadows (c'.step e policy s.bare).1 ∧
      (c'.step e policy s.bare).2 = (c.step e.watched policy s).2.bare := by
  have hprocess : ∀ {p : Process (Watched σ) CycleOutcome} {q : Process σ CycleOutcome},
      Process.Shadows s.world p q →
      (Call.hold (p.advance s.world)).1.Shadows (Call.hold (q.advance s.world.now)).1 ∧
        (Call.hold (q.advance s.world.now)).2 = (Call.hold (p.advance s.world)).2.bare := by
    intro p q hpq
    obtain ⟨hprogress, hnow⟩ := hpq.advance
    have hheld := Shadows.hold hprogress (p.advance s.world).2
    rwa [hnow] at hheld
  cases h with
  | fresh =>
    -- both find the same flag
    obtain ⟨busy, w⟩ := s
    cases busy with
    | true => exact ⟨.ended .skipped, rfl⟩
    | false => exact hprocess ((Cycle.body e.home policy).shadows_within e w)
  | running h => exact hprocess (h s.world)
  | ended outcome => exact ⟨.ended outcome, rfl⟩

end Call

namespace Pool

/-- Both pools stand at the same point. -/
structure Shadows (q : Pool (Watched σ)) (p : Pool σ) : Prop where
  /-- Without the requests the same is shared. -/
  shared : p.shared = q.shared.bare
  /-- The calls stand at the same points. -/
  calls : ∀ i : Nat, Option.Rel Call.Shadows q.calls[i]? p.calls[i]?

variable {e : Surroundings σ} {policy : DemotionPolicy} {p : Pool σ} {q : Pool (Watched σ)}

theorem shadows_ofFresh (n : Nat) (s : Shared (Watched σ)) :
    (ofFresh n s).Shadows (ofFresh n s.bare) := by
  refine ⟨rfl, fun i => ?_⟩
  by_cases h : i < n
  · simpa [ofFresh, h] using Option.Rel.some Call.Shadows.fresh
  · simp [ofFresh, h]

/-- A turn of a watched pool is a turn of the pool. -/
theorem Shadows.step (h : q.Shadows p) (i : Nat) :
    (q.step e.watched policy i).Shadows (p.step e policy i) := by
  have hi := h.calls i
  unfold Pool.step
  generalize hq : q.calls[i]? = c? at hi ⊢
  generalize hp : p.calls[i]? = c'? at hi ⊢
  cases hi with
  | none => exact h
  | some hc =>
    obtain ⟨hcall, hshared⟩ := hc.step q.shared
    rw [← h.shared] at hcall hshared
    refine ⟨hshared, fun j => ?_⟩
    simp only [List.getElem?_set']
    split
    -- the call whose turn it is, and the others
    · subst_vars
      simpa [hq, hp] using Option.Rel.some hcall
    · exact h.calls j

/-- **Watching changes nothing**, in whatever order the calls take turns. -/
theorem shadows_steps (h : q.Shadows p) (order : List Nat) :
    (q.steps e.watched policy order).Shadows (p.steps e policy order) := by
  induction order generalizing p q with
  | nil => exact h
  | cons i order ih => exact ih (h.step i)

/-- A call that has ended has ended in the same way where it is watched. -/
theorem Shadows.ended (h : q.Shadows p) {i : Nat} {outcome : CycleOutcome}
    (hi : p.calls[i]? = some (.ended outcome)) : q.calls[i]? = some (.ended outcome) := by
  have hcalls := h.calls i
  rw [hi] at hcalls
  generalize q.calls[i]? = c? at hcalls ⊢
  cases hcalls with
  | some hc =>
    cases hc
    rfl

/-- Whatever can be told of a call from where it stands can be told of its shadow. -/
theorem Shadows.map_eq (h : q.Shadows p) {β : Type} {f : Call (Watched σ) → β} {g : Call σ → β}
    (hfg : ∀ {c c'}, Call.Shadows c c' → f c = g c') : q.calls.map f = p.calls.map g := by
  refine List.ext_getElem? fun i => ?_
  have hi := h.calls i
  simp only [List.getElem?_map]
  generalize q.calls[i]? = c? at hi ⊢
  generalize p.calls[i]? = c'? at hi ⊢
  cases hi with
  | none => rfl
  | some hc => simp only [Option.map_some, hfg hc]

/-- As many calls are of a kind as of their shadows. -/
theorem Shadows.countP_eq (h : q.Shadows p) {kind : Call (Watched σ) → Bool}
    {kind' : Call σ → Bool} (hkind : ∀ {c c'}, Call.Shadows c c' → kind c = kind' c') :
    q.calls.countP kind = p.calls.countP kind' := by
  have hmap := congrArg (List.countP id) (h.map_eq hkind)
  simpa [List.countP_map] using hmap

end Pool

end Upkeep
