/-!
# Processes that take time

A process works on a shared state and may pause.  Between two pauses nothing else runs, so
the pauses are the only points at which other processes can change the state.  A process is a
tree, so it ends after finitely many steps on every run.

* `Process.advance` runs a process up to its next pause;
* `Process.finish` runs it alone to its end and adds up the pauses, in milliseconds;
* `Process.carry` runs it alone for as long as its pauses end by a given instant.
-/

namespace Upkeep

/-- A process that works on a state of type `σ` and ends with a value of type `α`. -/
inductive Process (σ α : Type) : Type
  /-- The process ends. -/
  | done (a : α)
  /-- The process looks at the state. -/
  | look (next : σ → Process σ α)
  /-- The process replaces the state. -/
  | become (s : σ) (next : Process σ α)
  /-- The process lets a time pass, in milliseconds. -/
  | pause (ms : Nat) (next : Process σ α)

/-- Where a process stands when it gives way. -/
inductive Progress (σ α : Type) : Type
  /-- It has ended. -/
  | ended (a : α)
  /-- It waits, and then goes on with `rest`. -/
  | waiting (ms : Nat) (rest : Process σ α)

namespace Process

variable {σ α β γ : Type}

/-- Goes on with what `f` makes of the value. -/
def bind : Process σ α → (α → Process σ β) → Process σ β
  | done a, f => f a
  | look next, f => look fun s => (next s).bind f
  | become s next, f => become s (next.bind f)
  | pause ms next, f => pause ms (next.bind f)

instance : Monad (Process σ) where
  pure := done
  bind := bind

/-- Changes the state and ends with a value, in one step. -/
def update (f : σ → α × σ) : Process σ α :=
  look fun s =>
    let r := f s
    become r.2 (done r.1)

/-- Changes the state in one step. -/
def modify (f : σ → σ) : Process σ Unit := update fun s => ((), f s)

/-- Lets a time pass; no time is no pause. -/
def wait (ms : Nat) : Process σ Unit := if ms = 0 then done () else pause ms (done ())

/-- Runs a process up to its next pause. -/
def advance : Process σ α → σ → Progress σ α × σ
  | done a, s => (.ended a, s)
  | look next, s => (next s).advance s
  | become s next, _ => next.advance s
  | pause ms next, s => (.waiting ms next, s)

/-- Runs a process alone to its end: its value, the time that passed, and the state. -/
def finish : Process σ α → (elapsed : Nat) → σ → (α × Nat) × σ
  | done a, elapsed, s => ((a, elapsed), s)
  | look next, elapsed, s => (next s).finish elapsed s
  | become s next, elapsed, _ => next.finish elapsed s
  | pause ms next, elapsed, s => next.finish (elapsed + ms) s

/-- Runs a process alone from the instant `now` through every pause that ends by `limit`.
The times of the progress are instants. -/
def carry (limit : Nat) : Process σ α → (now : Nat) → σ → Progress σ α × σ
  | done a, _, s => (.ended a, s)
  | look next, now, s => (next s).carry limit now s
  | become s next, now, _ => next.carry limit now s
  | pause ms next, now, s =>
    if now + ms ≤ limit then next.carry limit (now + ms) s else (.waiting (now + ms) next, s)

@[simp] theorem pure_eq (a : α) : (pure a : Process σ α) = done a := rfl

@[simp] theorem done_bind (a : α) (f : α → Process σ β) : (done a >>= f) = f a := rfl

@[simp] theorem look_bind (next : σ → Process σ α) (f : α → Process σ β) :
    (look next >>= f) = look fun s => next s >>= f := rfl

@[simp] theorem become_bind (s : σ) (next : Process σ α) (f : α → Process σ β) :
    (become s next >>= f) = become s (next >>= f) := rfl

@[simp] theorem pause_bind (ms : Nat) (next : Process σ α) (f : α → Process σ β) :
    (pause ms next >>= f) = pause ms (next >>= f) := rfl

theorem bind_done (p : Process σ α) : (p >>= done) = p := by
  induction p with
  | done a => rfl
  | look next ih => simp only [look_bind, ih]
  | become s next ih => simp only [become_bind, ih]
  | pause ms next ih => simp only [pause_bind, ih]

theorem bind_bind (p : Process σ α) (f : α → Process σ β) (g : β → Process σ γ) :
    ((p >>= f) >>= g) = p >>= fun a => f a >>= g := by
  induction p with
  | done a => rfl
  | look next ih => simp only [look_bind, ih]
  | become s next ih => simp only [become_bind, ih]
  | pause ms next ih => simp only [pause_bind, ih]

instance : LawfulMonad (Process σ) :=
  LawfulMonad.mk' (Process σ) (fun p => bind_done p) (fun _ _ => rfl)
    (fun p f g => bind_bind p f g)

/-- The second half of a process starts where the first one ended. -/
theorem finish_bind (p : Process σ α) (f : α → Process σ β) (elapsed : Nat) (s : σ) :
    (p >>= f).finish elapsed s =
      (f (p.finish elapsed s).1.1).finish (p.finish elapsed s).1.2 (p.finish elapsed s).2 := by
  induction p generalizing elapsed s with
  | done a => rfl
  | look next ih => simp only [look_bind, finish, ih]
  | become t next ih => simp only [become_bind, finish, ih]
  | pause ms next ih => simp only [pause_bind, finish, ih]

end Process

end Upkeep
