import Mathlib.Logic.Relation
import Upkeep.Process

/-!
# What a process guarantees among others

A process that pauses shares its state with whoever runs in the meantime.  `Process.Ensures R G Q`
says of a process, started in a given state, that every change it makes is one that `G` admits and
that it ends with a value and a state of which `Q` holds, provided that whatever happens during a
pause is admitted by `R`.

* `Process.ensures_bind` : a sequence is judged by judging its second half after its first.
* `Process.Ensures.advance` : the judgement survives the run up to the next pause.
* `Process.Ensures.finish` : a process that runs alone ends as it was judged to.
* `Process.Ensures.amid` : so does a process that runs amid others.
-/

namespace Upkeep

variable {σ α β : Type}

/-- Every change is admitted by `G`, and `Q` holds in the end, if `R` admits what others do. -/
def Process.Ensures (R G : σ → σ → Prop) (Q : α → σ → Prop) : Process σ α → σ → Prop
  | done a, s => Q a s
  | look next, s => (next s).Ensures R G Q s
  | become s' next, s => G s s' ∧ next.Ensures R G Q s'
  | pause _ next, s => ∀ s', R s s' → next.Ensures R G Q s'

/-- The same judgement on where a process stands when it gives way. -/
def Progress.Ensures (R G : σ → σ → Prop) (Q : α → σ → Prop) : Progress σ α → σ → Prop
  | .ended a, s => Q a s
  | .waiting _ rest, s => ∀ s', R s s' → rest.Ensures R G Q s'

/-- Every change that a process makes is admitted by `G`, whatever others do while it waits. -/
def Process.Makes (G : σ → σ → Prop) : Process σ α → σ → Prop :=
  Process.Ensures (fun _ _ => True) G fun _ _ => True

namespace Process

variable {R R' G G' : σ → σ → Prop} {Q Q' : α → σ → Prop}

theorem ensures_bind {p : Process σ α} {f : α → Process σ β} {Q : β → σ → Prop} {s : σ} :
    (p >>= f).Ensures R G Q s ↔ p.Ensures R G (fun a s' => (f a).Ensures R G Q s') s := by
  induction p generalizing s with
  | done a => exact Iff.rfl
  | look next ih => exact ih s
  | become s' next ih => exact and_congr_right fun _ => ih
  | pause ms next ih => exact forall₂_congr fun _ _ => ih

theorem Ensures.mono {p : Process σ α} {s : σ} (h : p.Ensures R G Q s)
    (hR : ∀ s s', R' s s' → R s s') (hG : ∀ s s', G s s' → G' s s')
    (hQ : ∀ a s, Q a s → Q' a s) : p.Ensures R' G' Q' s := by
  induction p generalizing s with
  | done a => exact hQ a s h
  | look next ih => exact ih s h
  | become s' next ih => exact ⟨hG s s' h.1, ih h.2⟩
  | pause ms next ih => exact fun s' hs => ih (h s' (hR s s' hs))

/-- What the changes of a process and of others all keep still holds in the end. -/
theorem Ensures.keep {p : Process σ α} {s : σ} {P : σ → Prop} (h : p.Ensures R G Q s) (hs : P s)
    (hR : ∀ s s', R s s' → P s → P s') (hG : ∀ s s', G s s' → P s → P s') :
    p.Ensures R G (fun a s' => Q a s' ∧ P s') s := by
  induction p generalizing s with
  | done a => exact ⟨h, hs⟩
  | look next ih => exact ih s h hs
  | become s' next ih => exact ⟨h.1, ih h.2 (hG s s' h.1 hs)⟩
  | pause ms next ih => exact fun s' hr => ih (h s' hr) (hR s s' hr hs)

theorem makes_anything (p : Process σ α) (s : σ) : p.Makes (fun _ _ => True) s := by
  induction p generalizing s with
  | done a => trivial
  | look next ih => exact ih s s
  | become s' next ih => exact ⟨trivial, ih s'⟩
  | pause ms next ih => exact fun s' _ => ih s'

theorem Makes.bind {p : Process σ α} {f : α → Process σ β} {s : σ} (h : p.Makes G s)
    (hf : ∀ a s, (f a).Makes G s) : (p >>= f).Makes G s :=
  ensures_bind.2 (Ensures.mono h (fun _ _ h => h) (fun _ _ h => h) fun a s' _ => hf a s')

/-- A view that no step changes is the same after any number of steps. -/
theorem same_of_steps {view : σ → β} {s s' : σ}
    (h : Relation.ReflTransGen (fun s s' => view s' = view s) s s') : view s' = view s := by
  induction h with
  | refl => rfl
  | tail _ hstep ih => exact hstep.trans ih

theorem ensures_update {f : σ → α × σ} {s : σ} :
    (update f).Ensures R G Q s ↔ G s (f s).2 ∧ Q (f s).1 (f s).2 := Iff.rfl

/-- Up to the next pause only the process itself has changed the state. -/
theorem Ensures.advance {p : Process σ α} {s : σ} (h : p.Ensures R G Q s) :
    Relation.ReflTransGen G s (p.advance s).2 ∧
      (p.advance s).1.Ensures R G Q (p.advance s).2 := by
  induction p generalizing s with
  | done a => exact ⟨.refl, h⟩
  | look next ih => exact ih s h
  | become s' next ih =>
    obtain ⟨hsteps, hrest⟩ := ih h.2
    exact ⟨.head h.1 hsteps, hrest⟩
  | pause ms next ih => exact ⟨.refl, h⟩

/-- If nothing happens during its pauses, a process ends as it was judged to. -/
theorem Ensures.finish {p : Process σ α} {s : σ} (h : p.Ensures R G Q s) (hR : ∀ s, R s s)
    (elapsed : Nat) :
    Relation.ReflTransGen G s (p.finish elapsed s).2 ∧
      Q (p.finish elapsed s).1.1 (p.finish elapsed s).2 := by
  induction p generalizing s elapsed with
  | done a => exact ⟨.refl, h⟩
  | look next ih => exact ih s h elapsed
  | become s' next ih =>
    obtain ⟨hsteps, hend⟩ := ih h.2 elapsed
    exact ⟨.head h.1 hsteps, hend⟩
  | pause ms next ih => exact ih (h s (hR s)) (elapsed + ms)

/-- Runs a process to its end while others change the state at its pauses, each as the next member
of the list says: its value, the members that are left, and the state. -/
def amid : Process σ α → List (σ → σ) → σ → (α × List (σ → σ)) × σ
  | done a, others, s => ((a, others), s)
  | look next, others, s => (next s).amid others s
  | become s next, others, _ => next.amid others s
  | pause _ next, [], s => next.amid [] s
  | pause _ next, f :: others, s => next.amid others (f s)

theorem amid_bind (p : Process σ α) (f : α → Process σ β) (others : List (σ → σ)) (s : σ) :
    (p >>= f).amid others s =
      (f (p.amid others s).1.1).amid (p.amid others s).1.2 (p.amid others s).2 := by
  induction p generalizing others s with
  | done a => rfl
  | look next ih => exact ih s others s
  | become s' next ih => exact ih others s'
  | pause ms next ih =>
    cases others with
    | nil => exact ih [] s
    | cons g others => exact ih others (g s)

/-- If others keep to the rely at its pauses, a process ends as it was judged to. -/
theorem Ensures.amid {p : Process σ α} {s : σ} (h : p.Ensures R G Q s) (hR : ∀ s, R s s)
    {others : List (σ → σ)} (hothers : ∀ f ∈ others, ∀ s, R s (f s)) :
    Relation.ReflTransGen (fun s s' => G s s' ∨ R s s') s (p.amid others s).2 ∧
      Q (p.amid others s).1.1 (p.amid others s).2 ∧
      ∀ f ∈ (p.amid others s).1.2, ∀ s, R s (f s) := by
  induction p generalizing others s with
  | done a => exact ⟨.refl, h, hothers⟩
  | look next ih => exact ih s h hothers
  | become s' next ih =>
    obtain ⟨hsteps, hend⟩ := ih h.2 hothers
    exact ⟨.head (.inl h.1) hsteps, hend⟩
  | pause ms next ih =>
    cases others with
    -- nothing happens at this pause, or the next of the others takes its turn
    | nil => exact ih (h s (hR s)) hothers
    | cons f others =>
      obtain ⟨hf, hothers⟩ := List.forall_mem_cons.1 hothers
      obtain ⟨hsteps, hend⟩ := ih (h (f s) (hf s)) hothers
      exact ⟨.head (.inr (hf s)) hsteps, hend⟩

/-- How a process that runs alone ends does not depend on the time at which it starts. -/
theorem finish_elapsed (p : Process σ α) (elapsed : Nat) (s : σ) :
    (p.finish elapsed s).1.1 = (p.finish 0 s).1.1 ∧
      (p.finish elapsed s).2 = (p.finish 0 s).2 := by
  induction p generalizing elapsed s with
  | done a => exact ⟨rfl, rfl⟩
  | look next ih => exact ih s elapsed s
  | become s' next ih => exact ih elapsed s'
  | pause ms next ih =>
    obtain ⟨h₁, h₂⟩ := ih (elapsed + ms) s
    obtain ⟨h₃, h₄⟩ := ih (0 + ms) s
    exact ⟨h₁.trans h₃.symm, h₂.trans h₄.symm⟩

end Process

end Upkeep
