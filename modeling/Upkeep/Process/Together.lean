import Upkeep.Process

/-!
# Processes side by side

Several processes that share a state are started one after another at the same instant; then
always the one whose pause ends first goes on, and of several the one that was started first.
-/

namespace Upkeep

/-- One of several processes. -/
inductive Slot (σ α : Type) : Type
  /-- It waits until an instant. -/
  | waiting (wake : Nat) (rest : Process σ α)
  /-- It has ended at an instant. -/
  | ended (at_ : Nat) (a : α)

namespace Slot

variable {σ α : Type}

/-- The slot of a process that made progress at the instant `now`. -/
def ofProgress (now : Nat) : Progress σ α → Slot σ α
  | .ended a => ended now a
  | .waiting ms rest => waiting (now + ms) rest

/-- The value of a process that has ended, and the instant at which it did. -/
def result? : Slot σ α → Option (α × Nat)
  | waiting .. => none
  | ended at_ a => some (a, at_)

/-- Starts processes one after another. -/
def startAll : List (Process σ α) → σ → List (Slot σ α) × σ
  | [], s => ([], s)
  | p :: rest, s =>
    let (progress, s) := p.advance s
    let (slots, s) := startAll rest s
    (ofProgress 0 progress :: slots, s)

/-- The earliest instant at which a pause ends. -/
def firstWake? : List (Slot σ α) → Option Nat
  | [] => none
  | ended .. :: rest => firstWake? rest
  | waiting wake _ :: rest =>
    match firstWake? rest with
    | none => some wake
    | some other => some (min wake other)

/-- Lets the first process go on whose pause ends at the instant `now`. -/
def resume (now : Nat) : List (Slot σ α) → σ → List (Slot σ α) × σ
  | [], s => ([], s)
  | ended at_ a :: rest, s =>
    let (slots, s) := resume now rest s
    (ended at_ a :: slots, s)
  | waiting wake p :: rest, s =>
    if wake = now then
      let (progress, s) := p.advance s
      (ofProgress now progress :: rest, s)
    else
      let (slots, s) := resume now rest s
      (waiting wake p :: slots, s)

/-- Lets the processes go on, at most `steps` times, while one of them waits. -/
def resumeAll : (steps : Nat) → List (Slot σ α) → σ → List (Slot σ α) × σ
  | 0, slots, s => (slots, s)
  | steps + 1, slots, s =>
    match firstWake? slots with
    | none => (slots, s)
    | some now =>
      let (slots, s) := resume now slots s
      resumeAll steps slots s

end Slot

end Upkeep
