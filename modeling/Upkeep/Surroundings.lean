import Upkeep.Program
import Upkeep.Process

/-!
# Surroundings

The surroundings of a check answer its requests: a directory, an installer, a transport and a
record.  `Program.within` lets a program run in given surroundings, as a process on their
state.  Calls to the directory and entries on record take no time; an install and a heartbeat
are processes of their own and may pause.
-/

namespace Upkeep

/-- How a directory appears to a check: each call answers and may change the state. -/
structure DirectoryView (σ : Type) where
  /-- Asks for the standing of the home node. -/
  homeStatus : σ → Reply MemberStatus × σ
  /-- Asks for the databases that the home node hosts. -/
  databases : σ → Reply (List Database) × σ
  /-- Asks for the status of a copy. -/
  status : CopyKey → σ → Reply (Option CopyStatus) × σ
  /-- Gives a copy a status. -/
  setStatus : CopyKey → CopyStatus → σ → Reply Unit × σ
  /-- Asks which members serve a database. -/
  onlineNodes : Database → σ → Reply (List Node) × σ

/-- Installs copies of databases. -/
abbrev Installer (σ : Type) := InstallSource → Process σ (Reply Bool)

/-- Sends the heartbeat of a database to peers and collects answers for a time. -/
abbrev Transport (σ : Type) := Database → List Node → Nat → Process σ (Reply Responses)

/-- Everything that answers the requests of a check. -/
structure Surroundings (σ : Type) where
  /-- The node on which the checks run. -/
  home : Node
  /-- The directory. -/
  directory : DirectoryView σ
  /-- The installer. -/
  installer : Installer σ
  /-- The transport. -/
  transport : Transport σ
  /-- Puts something on record. -/
  note : Note → σ → σ

namespace Surroundings

variable {σ : Type}

/-- The answer to a request, as a process. -/
def answer (e : Surroundings σ) : (r : Request) → Process σ r.Answer
  | .homeStatus => .update e.directory.homeStatus
  | .databases => .update e.directory.databases
  | .status key => .update (e.directory.status key)
  | .setStatus key s => .update (e.directory.setStatus key s)
  | .onlineNodes database => .update (e.directory.onlineNodes database)
  | .install source => e.installer source
  | .heartbeat database peers timeoutMs => e.transport database peers timeoutMs
  | .note n => .modify (e.note n)

end Surroundings

namespace Program

variable {σ α β : Type}

/-- A program in its surroundings: every request is answered by them. -/
def within (e : Surroundings σ) : Program α → Process σ α
  | done a => .done a
  | ask r next => (e.answer r).bind fun x => (next x).within e

@[simp] theorem within_done (e : Surroundings σ) (a : α) :
    (done a).within e = Process.done a := rfl

theorem within_ask (e : Surroundings σ) (r : Request) (next : r.Answer → Program α) :
    (ask r next).within e = e.answer r >>= fun x => (next x).within e := rfl

theorem within_bind (e : Surroundings σ) (p : Program α) (f : α → Program β) :
    (p >>= f).within e = p.within e >>= fun a => (f a).within e := by
  induction p with
  | done a => rfl
  | ask r next ih =>
    simp only [ask_bind, within_ask, ih, Process.bind_bind]

end Program

end Upkeep
