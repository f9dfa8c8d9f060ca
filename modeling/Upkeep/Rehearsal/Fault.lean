import Upkeep.Rehearsal.Script

/-!
# Faults of a directory

In a rehearsal the checks may see the directory through faults.  A fault counts the calls that
fit it and strikes once, at the call that it was set for.  A fault that strikes first acts on
the directory and then may fail the call.  Every fault counts every call; of several that
strike together each acts in turn, until one of them fails the call.
-/

namespace Upkeep

/-- The calls of a directory that can fail. -/
inductive DirectoryMethod
  /-- The question for the standing of the home node. -/
  | homeStatus
  /-- The question for the hosted databases. -/
  | databases
  /-- The question for the status of a copy. -/
  | status
  /-- The writing of a status. -/
  | setStatus
  /-- The question for the nodes that serve a database. -/
  | onlineNodes
  deriving Repr, DecidableEq

/-- A call of a directory, with the arguments that it has. -/
structure DirectoryCall where
  /-- What is called. -/
  method : DirectoryMethod
  /-- The node of the call, if it has one. -/
  node : Option Node := none
  /-- The database of the call, if it has one. -/
  database : Option Database := none
  /-- The status of the call, if it has one. -/
  status : Option CopyStatus := none
  deriving Repr, DecidableEq

/-- Something that goes wrong at one call of a directory. -/
structure Fault where
  /-- The call it is set for; an argument that is missing here may be anything. -/
  target : DirectoryCall
  /-- At which of the calls that fit it strikes, counted from one. -/
  nth : Nat := 1
  /-- What is done to the directory. -/
  effects : List Operation := []
  /-- How the call ends; a call that answers goes on as if nothing had happened. -/
  ending : Ending := .answers
  deriving Repr, DecidableEq

namespace Fault

/-- Whether an argument is the one wanted, if one is wanted. -/
def fitsArgument {α : Type} [DecidableEq α] (wanted actual : Option α) : Bool :=
  wanted.isNone || wanted = actual

/-- Whether a call is one that the fault counts. -/
def fits (f : Fault) (call : DirectoryCall) : Bool :=
  f.target.method = call.method && fitsArgument f.target.node call.node &&
    fitsArgument f.target.database call.database && fitsArgument f.target.status call.status

/-- Counts a call, for each fault beside the number of calls it has counted. -/
def countCall (call : DirectoryCall) (faults : List (Fault × Nat)) : List (Fault × Nat) :=
  faults.map fun (f, seen) => (f, if f.fits call then seen + 1 else seen)

/-- The faults that strike at a call that was just counted. -/
def striking (call : DirectoryCall) (faults : List (Fault × Nat)) : List Fault :=
  (faults.filter fun (f, seen) => f.fits call && seen = f.nth).map Prod.fst

variable {ρ : Type}

/-- Lets faults strike one after another, until one of them fails the call. -/
def strike : List Fault → World ρ → Reply Unit × World ρ
  | [], w => (.ok (), w)
  | f :: rest, w =>
    let w := w.performAll f.effects
    match f.ending.reply () with
    | .ok () => strike rest w
    | .error a => (.error a, w)

end Fault

end Upkeep
