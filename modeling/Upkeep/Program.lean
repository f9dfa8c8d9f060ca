import Upkeep.Counter
import Upkeep.Report

/-!
# What a check asks of its surroundings

A check is written as a `Program`: a tree of requests, each followed by what the program does
with every possible answer.  The program does not say who answers.  So a law that holds of the
tree holds for every directory, installer and transport, whatever they answer and however
often they fail.

A `Check` is a program that a failing request ends; `Check.gather` runs one over a list.
-/

namespace Upkeep

/-- From where a copy of a database is installed. -/
structure InstallSource where
  /-- The database to copy. -/
  database : Database
  /-- The node from which the copy is pulled. -/
  node : Node
  /-- Every peer that serves the database. -/
  servers : List Node
  deriving Repr, DecidableEq

/-- Something put on record: a line for the operators, or one more of a counted event. -/
inductive Note
  /-- A line for the operators. -/
  | report (r : Report)
  /-- One more of a counted event. -/
  | count (c : Counter)
  deriving Repr, DecidableEq

/-- One request of a check. -/
inductive Request
  /-- What is the standing of the home node? -/
  | homeStatus
  /-- Which databases does the home node host? -/
  | databases
  /-- What is the status of a copy? -/
  | status (key : CopyKey)
  /-- Give a copy a status. -/
  | setStatus (key : CopyKey) (status : CopyStatus)
  /-- Which members serve a database? -/
  | onlineNodes (database : Database)
  /-- Install a copy of a database on the home node. -/
  | install (source : InstallSource)
  /-- Send a heartbeat to peers and collect the answers that come in time. -/
  | heartbeat (database : Database) (peers : List Node) (timeoutMs : Nat)
  /-- Put something on record. -/
  | note (n : Note)
  deriving Repr, DecidableEq

namespace Request

/-- The type of the answers to a request. -/
abbrev Answer : Request → Type
  | homeStatus => Reply MemberStatus
  | databases => Reply (List Database)
  | status _ => Reply (Option CopyStatus)
  | setStatus _ _ => Reply Unit
  | onlineNodes _ => Reply (List Node)
  | install _ => Reply Bool
  | heartbeat _ _ _ => Reply Responses
  | note _ => Unit

/-- Whether a request goes to the directory. -/
def isDirectoryCall : Request → Bool
  | homeStatus | databases | status _ | setStatus _ _ | onlineNodes _ => true
  | install _ | heartbeat _ _ _ | note _ => false

end Request

/-- A tree of requests: what is asked, and what is done with each answer. -/
inductive Program (α : Type) : Type
  /-- The program ends with a value. -/
  | done (a : α)
  /-- The program makes a request and goes on with the answer. -/
  | ask (r : Request) (next : r.Answer → Program α)

namespace Program

variable {α β γ : Type}

/-- Goes on with what `f` makes of the value. -/
def bind : Program α → (α → Program β) → Program β
  | done a, f => f a
  | ask r next, f => ask r fun x => (next x).bind f

instance : Monad Program where
  pure := done
  bind := bind

/-- Makes one request and ends with its answer. -/
def call (r : Request) : Program r.Answer := ask r done

/-- Puts a line for the operators on record. -/
def report (r : Report) : Program Unit := call (.note (.report r))

/-- Counts an event. -/
def count (c : Counter) : Program Unit := call (.note (.count c))

@[simp] theorem pure_eq (a : α) : (pure a : Program α) = done a := rfl

@[simp] theorem done_bind (a : α) (f : α → Program β) : (done a >>= f) = f a := rfl

@[simp] theorem ask_bind (r : Request) (next : r.Answer → Program α) (f : α → Program β) :
    (ask r next >>= f) = ask r fun x => next x >>= f := rfl

theorem bind_done (p : Program α) : (p >>= done) = p := by
  induction p with
  | done a => rfl
  | ask r next ih => simp only [ask_bind, ih]

theorem bind_bind (p : Program α) (f : α → Program β) (g : β → Program γ) :
    ((p >>= f) >>= g) = p >>= fun a => f a >>= g := by
  induction p with
  | done a => rfl
  | ask r next ih => simp only [ask_bind, ih]

instance : LawfulMonad Program :=
  LawfulMonad.mk' Program (fun p => bind_done p) (fun _ _ => rfl) (fun p f g => bind_bind p f g)

end Program

/-- A program that a failing request ends. -/
abbrev Check (α : Type) := ExceptT Abort Program α

namespace Check

variable {α β : Type}

/-- The standing of the home node. -/
def homeStatus : Check MemberStatus := ExceptT.mk (Program.call .homeStatus)

/-- The databases that the home node hosts. -/
def databases : Check (List Database) := ExceptT.mk (Program.call .databases)

/-- The status of a copy. -/
def status (key : CopyKey) : Check (Option CopyStatus) :=
  ExceptT.mk (Program.call (.status key))

/-- Gives a copy a status. -/
def setStatus (key : CopyKey) (s : CopyStatus) : Check Unit :=
  ExceptT.mk (Program.call (.setStatus key s))

/-- The members that serve a database. -/
def onlineNodes (database : Database) : Check (List Node) :=
  ExceptT.mk (Program.call (.onlineNodes database))

/-- Asks for a copy to be installed; a failure is an answer and does not end the check. -/
def install (source : InstallSource) : Check (Reply Bool) :=
  ExceptT.lift (Program.call (.install source))

/-- Sends a heartbeat; a failure is an answer and does not end the check. -/
def heartbeat (database : Database) (peers : List Node) (timeoutMs : Nat) :
    Check (Reply Responses) :=
  ExceptT.lift (Program.call (.heartbeat database peers timeoutMs))

/-- Puts a line for the operators on record. -/
def report (r : Report) : Check Unit := ExceptT.lift (Program.report r)

/-- Counts an event. -/
def count (c : Counter) : Check Unit := ExceptT.lift (Program.count c)

/-- Runs a check for each member of a list, in order, and joins what they find. -/
def gather (f : α → Check (List β)) : List α → Check (List β)
  | [] => pure []
  | a :: rest => do
    let found ← f a
    let later ← gather f rest
    return found ++ later

end Check

end Upkeep
