import Upkeep.Cycle
import Upkeep.Surroundings

/-!
# The parts of a cycle

A cycle is two notes, the repair check, and what comes after it.  `Program.Closed` says of a
property of programs that it holds of those that do nothing or make a note, and of a sequence whose
parts it holds of; such a property holds of a cycle if it holds of the three checks
(`Cycle.closed_rest`, `Cycle.closed_body`).
-/

namespace Upkeep

variable {σ α : Type}

/-- The property holds of every sequence of notes and of programs that it holds of.  The notes that
count cycles are left out. -/
structure Program.Closed (M : {α : Type} → Program α → Prop) : Prop where
  /-- It holds of a program that does nothing. -/
  pure : ∀ {α : Type} (a : α), M (pure a : Program α)
  /-- It holds of a sequence. -/
  bind : ∀ {α β : Type} {p : Program α} {f : α → Program β}, M p → (∀ a, M (f a)) → M (p >>= f)
  /-- It holds of a note. -/
  note : ∀ n, n ≠ .count .cycles → n ≠ .count .skippedCycles → M (Program.call (.note n))

namespace Cycle

/-- A cycle once it has been announced and counted. -/
def rest (home : Node) (policy : DemotionPolicy) : Program CycleOutcome := do
  let outcome ← checks home policy
  Program.report (.cycleEnded home outcome)
  return outcome

/-- What a cycle puts on record as it begins. -/
def opened (e : Surroundings σ) (s : σ) : σ :=
  e.note (.count .cycles) (e.note (.report (.cycleStarted e.home)) s)

/-- What a call puts on record that passes over. -/
def passed (e : Surroundings σ) (s : σ) : σ :=
  e.note (.count .skippedCycles) (e.note (.report (.cycleSkipped e.home)) s)

theorem advance_body (e : Surroundings σ) (policy : DemotionPolicy) (s : σ) :
    ((body e.home policy).within e).advance s =
      ((rest e.home policy).within e).advance (opened e s) := rfl

theorem advance_passOver (e : Surroundings σ) (s : σ) :
    ((passOver e.home).within e).advance s = (.ended .skipped, passed e s) := rfl

/-- The checks after the repair check, if the cycle goes on. -/
def laterChecks (home : Node) (policy : DemotionPolicy) (goesOn : Bool) :
    Program CycleOutcome := do
  if goesOn then
    if ← guarded home .audit (Audit.check home) then
      if ← guarded home .stall (Stall.check home policy) then
        return .completed
  return .interrupted

/-- A cycle once its repair check has come to an end. -/
def afterRepair (home : Node) (policy : DemotionPolicy) (reply : Reply α) :
    Program CycleOutcome := do
  let outcome ← laterChecks home policy (← absorb home .repair reply)
  Program.report (.cycleEnded home outcome)
  return outcome

theorem rest_eq (home : Node) (policy : DemotionPolicy) :
    rest home policy = (Repair.check home).run >>= afterRepair home policy := by
  have hchecks : checks home policy =
      guarded home .repair (Repair.check home) >>= laterChecks home policy := rfl
  simp only [rest, hchecks, guarded, bind_assoc]
  rfl

section Closed

variable {M : {α : Type} → Program α → Prop} (hM : Program.Closed M) {home : Node}
  {policy : DemotionPolicy}
include hM

theorem closed_absorb (home : Node) (name : CheckName) (reply : Reply α) :
    M (absorb home name reply) := by
  cases reply with
  | ok a => exact hM.pure true
  | error a =>
    simp only [absorb]
    split
    · exact hM.pure false
    · refine hM.bind (hM.note _ nofun nofun) fun _ => ?_
      exact hM.bind (hM.note _ nofun nofun) fun _ => hM.pure true

theorem closed_guarded {name : CheckName} {c : Check α} (hc : M c.run) :
    M (guarded home name c) :=
  hM.bind hc fun reply => closed_absorb hM home name reply

theorem closed_afterRepair (haudit : M (Audit.check home).run)
    (hstall : M (Stall.check home policy).run) (reply : Reply α) :
    M (afterRepair home policy reply) := by
  refine hM.bind (closed_absorb hM home _ reply) fun goesOn => hM.bind ?_ fun outcome =>
    hM.bind (hM.note _ nofun nofun) fun _ => hM.pure outcome
  -- each check may end the cycle
  cases goesOn with
  | false => exact hM.pure _
  | true =>
    refine hM.bind (closed_guarded hM haudit) fun goesOn => ?_
    cases goesOn with
    | false => exact hM.pure _
    | true =>
      refine hM.bind (closed_guarded hM hstall) fun goesOn => ?_
      cases goesOn <;> exact hM.pure _

/-- **What holds of the checks holds of a cycle** once it has been announced and counted. -/
theorem closed_rest (hrepair : M (Repair.check home).run) (haudit : M (Audit.check home).run)
    (hstall : M (Stall.check home policy).run) : M (rest home policy) := by
  rw [rest_eq]
  exact hM.bind hrepair fun reply => closed_afterRepair hM haudit hstall reply

/-- **What holds of the checks holds of a cycle**, if it holds of counting it. -/
theorem closed_body (hcount : M (Program.count .cycles)) (hrepair : M (Repair.check home).run)
    (haudit : M (Audit.check home).run) (hstall : M (Stall.check home policy).run) :
    M (body home policy) :=
  hM.bind (hM.note _ nofun nofun) fun _ => hM.bind hcount fun _ =>
    closed_rest hM hrepair haudit hstall

end Closed

end Cycle

end Upkeep
