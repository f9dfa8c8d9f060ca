import Upkeep.Report
import Upkeep.Text.Blank

/-!
# Which lines reach the console

A filter is a list of directives.  A directive lets lines through up to a level, for all parts
of the program or for those whose path starts with a text; the directive with the longest such
text decides, and of several for the same text the last.  Where no directive speaks for a
line, it is kept back.  A text writes directives with commas between them; what is no
directive is passed over, and if there is none at all, lines from `info` on are let through.
-/

namespace Upkeep

/-- Up to which level lines are let through. -/
inductive Threshold
  /-- No line is let through. -/
  | off
  /-- Lines at least as urgent as a level are let through. -/
  | upTo (level : Level)
  /-- Every line is let through. -/
  | all
  deriving Repr, DecidableEq

namespace Threshold

/-- Whether lines of a level are let through. -/
def allows (t : Threshold) (l : Level) : Bool :=
  match t with
  | off => false
  | upTo level => l.rank ≤ level.rank
  | all => true

/-- A threshold by its number. -/
def ofNumber? : Nat → Option Threshold
  | 0 => some off
  | 1 => some (upTo .error)
  | 2 => some (upTo .warn)
  | 3 => some (upTo .info)
  | 4 => some (upTo .debug)
  | 5 => some all
  | _ => none

/-- A threshold by its name, in any case of letters, or by its number. -/
def ofString? (s : String) : Option Threshold :=
  let digits := s.toList
  if digits ≠ [] ∧ digits.all fun c => '0' ≤ c && c ≤ '9' then
    ofNumber? (digits.foldl (fun n c => 10 * n + (c.toNat - '0'.toNat)) 0)
  else
    match s.toLower with
    | "off" => some off
    | "error" => some (upTo .error)
    | "warn" => some (upTo .warn)
    | "info" => some (upTo .info)
    | "debug" => some (upTo .debug)
    | "trace" => some all
    | _ => none

end Threshold

/-- A rule about the lines of some part of the program. -/
structure Directive where
  /-- The text with which the path of the part starts; if missing, the rule is for all. -/
  path : Option String
  /-- Which lines are let through. -/
  threshold : Threshold
  deriving Repr, DecidableEq

namespace Directive

/-- Whether a directive may start with a character. -/
def canStart (c : Char) : Bool := c.isAlphanum || c ∈ ['-', ':', '_'] || 0x80 ≤ c.toNat

/-- The directive that a text without an equals sign writes: a threshold, or a path for which
everything is let through. -/
def ofWord (word : String) : Directive :=
  match Threshold.ofString? word with
  | some t => ⟨none, t⟩
  | none => ⟨some word, .all⟩

/-- The directive that a path and the text after its equals sign write.  A path before nothing
lets everything through. -/
def ofPair? (path level : String) : Option Directive :=
  if level.isEmpty then some ⟨some path, .all⟩
  else (Threshold.ofString? level).map fun t => ⟨some path, t⟩

/-- The directive that a text writes: a threshold, a path, or both with an equals sign between
them.  Blanks are not taken off: around a word they make it a path that no part has, around a
pair they spoil it. -/
def ofChars? (cs : List Char) : Option Directive :=
  match cs.dropWhile Text.isBlankChar with
  | [] => none
  | c :: rest =>
    if !canStart c then none
    else
      match cs.span (· ≠ '=') with
      | (word, []) => some (ofWord (String.ofList word))
      | (path, _ :: level) =>
        if rest.length + 1 < cs.length then none
        else ofPair? (String.ofList path) (String.ofList level)

/-- Whether a directive speaks for a part of the program. -/
def covers (d : Directive) (a : Area) : Bool :=
  match d.path with
  | none => true
  | some path => path.toList.isPrefixOf a.path.toList

/-- How closely a directive names what it speaks for. -/
def closeness (d : Directive) : Nat :=
  match d.path with
  | none => 0
  | some path => path.utf8ByteSize + 1

end Directive

/-- Rules about which lines reach the console. -/
abbrev Filter := List Directive

namespace Filter

/-- The pieces of a text between commas. -/
def pieces (cs : List Char) : List (List Char) :=
  cs.foldr (fun c acc =>
    if c = ',' then [] :: acc
    else
      match acc with
      | [] => [[c]]
      | piece :: rest => (c :: piece) :: rest) [[]]

/-- The filter that a text writes. -/
def ofString (s : String) : Filter :=
  match (pieces s.toList).filterMap Directive.ofChars? with
  | [] => [⟨none, .upTo .info⟩]
  | directives => directives

/-- The directive that decides about a part of the program: of those that speak for it, the
closest, and of equally close ones the last. -/
def deciding? (a : Area) : Filter → Option Directive
  | [] => none
  | d :: rest =>
    match deciding? a rest with
    | none => if d.covers a then some d else none
    | some later => if d.covers a && later.closeness < d.closeness then some d else some later

/-- Whether a line is let through. -/
def allows (f : Filter) (l : Line) : Bool :=
  match deciding? l.area f with
  | none => false
  | some d => d.threshold.allows l.level

end Filter

end Upkeep
