import Upkeep.Proofs.Cycle.Alone
import Upkeep.Proofs.Process.Guarantee
import Upkeep.Proofs.Schedule.Task

/-!
# A cycle that is let go on up to an instant

A timeline lets the call that waits go on bit by bit, each time up to the instant of the next tick.

* `Process.carry_of_finish_le`, `Process.carry_of_lt_finish` : a process that is let go on up to an
  instant has ended if its end falls by then, and is on its way to that same end if not.
* `Process.Ensures.carry` : what a process was judged to do it still does.
* `Timeline.carry_ends`, `Timeline.carry_waits` : the same of a timeline on which one call waits.
-/

namespace Upkeep

variable {σ α : Type}

namespace Process

/-- The end of a process is not before its start. -/
theorem le_finish (p : Process σ α) (now : Nat) (s : σ) : now ≤ (p.finish now s).1.2 := by
  induction p generalizing now s with
  | done a => exact Nat.le_refl now
  | look next ih => exact ih s now s
  | become s' next ih => exact ih now s'
  | pause ms next ih => exact Nat.le_trans (Nat.le_add_right now ms) (ih (now + ms) s)

/-- A process whose end falls by an instant has ended at that instant. -/
theorem carry_of_finish_le {limit : Nat} (p : Process σ α) (now : Nat) (s : σ)
    (h : (p.finish now s).1.2 ≤ limit) :
    p.carry limit now s = (.ended (p.finish now s).1.1, (p.finish now s).2) := by
  induction p generalizing now s with
  | done a => rfl
  | look next ih => exact ih s now s h
  | become s' next ih => exact ih now s' h
  | pause ms next ih =>
    have hpause : now + ms ≤ limit := Nat.le_trans (next.le_finish (now + ms) s) h
    simp only [carry, if_pos hpause]
    exact ih (now + ms) s h

/-- A process whose end falls later waits beyond that instant, and is on its way to the same end. -/
theorem carry_of_lt_finish {limit : Nat} (p : Process σ α) (now : Nat) (s : σ) (hnow : now ≤ limit)
    (h : limit < (p.finish now s).1.2) :
    ∃ wake rest, (p.carry limit now s).1 = .waiting wake rest ∧ limit < wake ∧
      rest.finish wake (p.carry limit now s).2 = p.finish now s := by
  induction p generalizing now s with
  | done a => exact absurd hnow (Nat.not_le_of_lt h)
  | look next ih => exact ih s now s hnow h
  | become s' next ih => exact ih now s' hnow h
  | pause ms next ih =>
    simp only [carry]
    split
    · exact ih (now + ms) s ‹_› h
    · exact ⟨now + ms, next, rfl, Nat.lt_of_not_le ‹_›, rfl⟩

variable {R G : σ → σ → Prop} {Q : α → σ → Prop}

/-- If nothing happens during its pauses, a process that is let go on keeps to its judgement. -/
theorem Ensures.carry {p : Process σ α} {s : σ} (h : p.Ensures R G Q s) (hR : ∀ s, R s s)
    (limit now : Nat) :
    Relation.ReflTransGen G s (p.carry limit now s).2 ∧
      (p.carry limit now s).1.Ensures R G Q (p.carry limit now s).2 := by
  induction p generalizing now s with
  | done a => exact ⟨.refl, h⟩
  | look next ih => exact ih s h now
  | become s' next ih =>
    obtain ⟨hsteps, hrest⟩ := ih h.2 now
    exact ⟨.head h.1 hsteps, hrest⟩
  | pause ms next ih =>
    simp only [Process.carry]
    split
    · exact ih (h s (hR s)) (now + ms)
    · exact ⟨.refl, h⟩

/-- A process waits beyond the instant up to which it is let go on. -/
theorem lt_of_carry {limit : Nat} {p : Process σ α} {now : Nat} {s : σ} {wake : Nat}
    {rest : Process σ α} (h : (p.carry limit now s).1 = .waiting wake rest) : limit < wake := by
  induction p generalizing now s with
  | done a => cases h
  | look next ih => exact ih s h
  | become s' next ih => exact ih h
  | pause ms next ih =>
    simp only [Process.carry] at h
    split at h
    · exact ih h
    · cases h
      exact Nat.lt_of_not_le ‹_›

end Process

namespace Timeline

/-- So does every call that is let go on. -/
theorem lt_of_mem_carryCalls {limit : Nat} {calls : List (Nat × Process σ CycleOutcome)}
    {s : Shared σ} {x : Nat × Process σ CycleOutcome} (hx : x ∈ (carryCalls limit calls s).1) :
    limit < x.1 := by
  induction calls generalizing s with
  | nil => cases hx
  | cons call calls ih =>
    obtain ⟨wake, rest⟩ := call
    simp only [carryCalls] at hx
    split at hx
    · cases hcarry : rest.carry limit wake s.world with
      | mk progress world =>
        rw [hcarry] at hx
        cases progress with
        | ended outcome => exact ih hx
        | waiting wake' rest' =>
          obtain rfl | hx := List.mem_cons.1 hx
          · exact Process.lt_of_carry (congrArg Prod.fst hcarry)
          · exact ih hx
    · obtain rfl | hx := List.mem_cons.1 hx
      · exact Nat.lt_of_not_le ‹_›
      · exact ih hx

variable {t : Timeline σ} {wake limit : Nat} {rest : Process σ CycleOutcome}

theorem carry_of_idle (hidle : t.waiting = []) (limit : Nat) :
    t.carry limit = { t with now := limit } := by
  rw [carry, hidle, carryCalls]

/-- A call whose end falls by an instant has ended at that instant, and has let the flag down. -/
theorem carry_ends (hwaits : t.waiting = [(wake, rest)])
    (hend : (rest.finish wake t.shared.world).1.2 ≤ limit) :
    t.carry limit = { t with
      now := limit, waiting := [], shared := ⟨false, (rest.finish wake t.shared.world).2⟩ } := by
  have hwake : wake ≤ limit := Nat.le_trans (rest.le_finish wake t.shared.world) hend
  rw [carry, hwaits, carryCalls, if_pos hwake, Process.carry_of_finish_le _ _ _ hend]
  rfl

/-- A call whose end falls later waits beyond that instant, and is on its way to the same end.  What
it was judged to do it has done so far, and it will. -/
theorem carry_waits {G : σ → σ → Prop} {Q : CycleOutcome → σ → Prop}
    (hwaits : t.waiting = [(wake, rest)]) (hbusy : t.shared.busy = true)
    (hrest : ∀ s, rest.Ensures (fun _ _ => True) G Q s)
    (hend : limit < (rest.finish wake t.shared.world).1.2) :
    ∃ wake' rest' world', t.carry limit = { t with
        now := limit, waiting := [(wake', rest')], shared := ⟨true, world'⟩ } ∧
      limit < wake' ∧ rest'.finish wake' world' = rest.finish wake t.shared.world ∧
      Relation.ReflTransGen G t.shared.world world' ∧
      ∀ s, rest'.Ensures (fun _ _ => True) G Q s := by
  by_cases hwake : wake ≤ limit
  · obtain ⟨wake', rest', hprogress, hlater, hsame⟩ :=
      Process.carry_of_lt_finish rest wake t.shared.world hwake hend
    obtain ⟨hsteps, hjudged⟩ := (hrest t.shared.world).carry (fun _ => trivial) limit wake
    have hcarry : rest.carry limit wake t.shared.world =
        (.waiting wake' rest', (rest.carry limit wake t.shared.world).2) := Prod.ext hprogress rfl
    rw [hprogress] at hjudged
    refine ⟨wake', rest', _, ?_, hlater, hsame, hsteps, fun s => hjudged s trivial⟩
    rw [carry, hwaits, carryCalls, if_pos hwake, hcarry]
    rfl
  · refine ⟨wake, rest, t.shared.world, ?_, Nat.lt_of_not_le hwake, rfl, .refl, hrest⟩
    rw [carry, hwaits, carryCalls, if_neg hwake, ← hbusy]
    rfl

end Timeline

end Upkeep
