import Upkeep.Settings.Decode
import Upkeep.Toml.Document

/-!
# Where settings come from

Settings are read from a file in stages: its text, the document in the text, the settings in
the document, and the rules that settings must keep.  `Settings.load` goes through the stages
and fails at the first that fails.  `Settings.choose` takes the first of several files whose
settings can be used, and the defaults if there is none; `Settings.search` makes this choice
while it reads one file after another.
-/

namespace Upkeep

/-- What is found at a path. -/
inductive FileContent
  /-- Nothing. -/
  | missing
  /-- A directory. -/
  | directory
  /-- A file with these bytes. -/
  | bytes (data : ByteArray)

/-- Why a file has no text. -/
inductive ReadProblem
  /-- There is nothing at the path. -/
  | missing
  /-- There is a directory at the path. -/
  | directory
  /-- The bytes of the file are not UTF-8. -/
  | notText
  deriving Repr, DecidableEq

/-- The words of the operating system for it. -/
def ReadProblem.message : ReadProblem → String
  | missing => "No such file or directory (os error 2)"
  | directory => "Is a directory (os error 21)"
  | notText => "stream did not contain valid UTF-8"

/-- Why no settings can be had from a file. -/
inductive LoadProblem
  /-- The file has no text. -/
  | unreadable (problem : ReadProblem)
  /-- The text is no document. -/
  | noDocument
  /-- The data of the document does not fit. -/
  | misfit (problem : Misfit)
  /-- The settings break a rule. -/
  | unusable (problem : SettingsProblem)
  deriving Repr, DecidableEq

/-- The text of a problem. -/
def LoadProblem.message : LoadProblem → String
  | unreadable problem => "Failed to read config file: " ++ problem.message
  | noDocument => "Failed to parse config: TOML parse error"
  | misfit problem => "Failed to parse config: " ++ problem.message
  | unusable problem => "Invalid config: " ++ problem.message

/-- The text of a file. -/
def FileContent.text? : FileContent → Except ReadProblem String
  | missing => .error .missing
  | directory => .error .directory
  | bytes data =>
    match String.fromUTF8? data with
    | some s => .ok s
    | none => .error .notText

namespace Settings

/-- The settings that a text writes. -/
def parse (text : String) : Except LoadProblem Settings :=
  match Toml.Document.parse? text with
  | none => .error .noDocument
  | some rows => (Decode.settings rows).mapError .misfit

/-- The settings in a file, if the health loop can run with them. -/
def load (content : FileContent) : Except LoadProblem Settings := do
  let text ← content.text?.mapError .unreadable
  let settings ← parse text
  settings.check.mapError .unusable
  return settings

/-- What came of looking for settings: those that were chosen and, of the files looked at, the
ones that gave none and the one that gave them. -/
structure Choice where
  /-- The settings. -/
  settings : Settings
  /-- The files that gave none, in order, each with the reason. -/
  rejected : List (String × LoadProblem)
  /-- The file that gave the settings, if they are not the defaults. -/
  path? : Option String

/-- The settings of the first file that gives any; no file after it is looked at. -/
def choose (read : String → FileContent) : (paths : List String) → Choice
  | [] => ⟨{}, [], none⟩
  | path :: paths =>
    match load (read path) with
    | .ok settings => ⟨settings, [], some path⟩
    | .error problem =>
      let choice := choose read paths
      { choice with rejected := (path, problem) :: choice.rejected }

/-- The same choice, made while the files are read: one is read only if those before it gave no
settings. -/
def search {m : Type → Type} [Monad m] (read : String → m FileContent) :
    (paths : List String) → m Choice
  | [] => return ⟨{}, [], none⟩
  | path :: paths => do
    match load (← read path) with
    | .ok settings => return ⟨settings, [], some path⟩
    | .error problem =>
      let choice ← search read paths
      return { choice with rejected := (path, problem) :: choice.rejected }

/-- The paths at which the program looks for settings, in order. -/
def paths : List String := ["config/replica-health.toml", "replica-health.toml"]

end Settings

end Upkeep
