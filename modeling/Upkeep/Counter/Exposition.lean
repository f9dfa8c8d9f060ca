import Upkeep.Counter

/-!
# The text of the counters

The monitoring endpoint shows the counters as families in the order of their names.  A family
is announced by two comment lines and lists its samples, one a line, in the order of their
label values.  A family without a label always has its one sample; a labelled family without
a sample is left out.

A labelled family finds the sample of a label value by a hash of the value.  Values with the same
hash share a sample, which shows the one that was recorded first.
-/

namespace Upkeep

/-- A family of counters. -/
inductive Family
  /-- Failures that escaped a check. -/
  | checkErrors
  /-- Ticks passed over. -/
  | skippedCycles
  /-- Cycles that ran. -/
  | cycles
  /-- Decisions on silent peers. -/
  | demotions
  /-- Heartbeat rounds. -/
  | rounds
  /-- Local copies found without a status. -/
  | missingStatuses
  /-- Recoveries of databases. -/
  | recoveries
  deriving Repr, DecidableEq

namespace Family

/-- Every family, in the order of the names. -/
def all : List Family :=
  [checkErrors, skippedCycles, cycles, demotions, rounds, missingStatuses, recoveries]

/-- The name of a family within the program. -/
def shortName : Family → String
  | checkErrors => "check_errors_total"
  | skippedCycles => "cycles_skipped_total"
  | cycles => "cycles_total"
  | demotions => "demotions_total"
  | rounds => "heartbeat_total"
  | missingStatuses => "missing_status_total"
  | recoveries => "recovery_total"

/-- The name of a family among those of other programs. -/
def name (f : Family) : String := "replica_health_" ++ f.shortName

/-- What a family counts. -/
def help : Family → String
  | checkErrors => "Total number of errors escaping a health check"
  | skippedCycles => "Total number of ticks skipped while a cycle was still running"
  | cycles => "Total number of health check cycles run"
  | demotions => "Total number of peer demotion decisions by outcome"
  | rounds => "Total number of heartbeat rounds by result"
  | missingStatuses => "Total number of missing local database status entries observed"
  | recoveries => "Total number of database recovery attempts by result"

/-- The label that tells the samples of a family apart, if it has one. -/
def label? : Family → Option String
  | checkErrors => some "check"
  | recoveries | rounds => some "result"
  | demotions => some "outcome"
  | skippedCycles | cycles | missingStatuses => none

end Family

namespace Counter

/-- The family of a counter. -/
def family : Counter → Family
  | cycles => .cycles
  | skippedCycles => .skippedCycles
  | checkErrors _ => .checkErrors
  | recoveries _ => .recoveries
  | rounds _ => .rounds
  | demotions _ => .demotions
  | missingStatuses => .missingStatuses

/-- The value of a counter's label; empty where the family has none. -/
def labelValue : Counter → String
  | checkErrors l | recoveries l | rounds l | demotions l => l
  | cycles | skippedCycles | missingStatuses => ""

end Counter

namespace Exposition

/-- How one character of a label value is written. -/
def escapeChar (c : Char) : List Char :=
  if c = '\\' then ['\\', '\\']
  else if c = '"' then ['\\', '"']
  else if c = '\n' then ['\\', 'n']
  else [c]

/-- A label value with the characters escaped that would end it or its line. -/
def escape (s : String) : String := String.ofList (s.toList.flatMap escapeChar)

/-- A sample's name: that of its family, with the label and its value in braces. -/
def sampleName (familyName : String) (label? : Option String) (value : String) : String :=
  match label? with
  | none => familyName
  | some label => familyName ++ "\x7b" ++ label ++ "=\"" ++ escape value ++ "\"\x7d"

/-- Where a labelled family keeps the sample of a label value: the 64-bit FNV-1a hash of the bytes
of the value. -/
def slot (value : String) : UInt64 :=
  value.toUTF8.data.toList.foldl (fun h byte => (h ^^^ byte.toUInt64) * 0x100000001b3)
    0xcbf29ce484222325

/-- The samples of a labelled family by their slots, each a label value with a count. -/
abbrev Shelf := Table UInt64 (String × Nat)

/-- Adds the count of a label value to the sample in its slot; a sample that is there already keeps
its own label value. -/
def Shelf.add (s : Shelf) (row : String × Nat) : Shelf :=
  s.put (slot row.1) ((s.find? (slot row.1)).elim row fun held => (held.1, held.2 + row.2))

/-- The samples of a labelled family. -/
def shelf (t : Tally) (f : Family) : Shelf :=
  ((t.rows.filter fun row => row.1.family = f).map fun row =>
    (row.1.labelValue, row.2)).foldl Shelf.add .empty

/-- The samples of a family as pairs of a label value and a count. -/
def samples (t : Tally) (f : Family) : List (String × Nat) :=
  match f.label? with
  | none => [("", (t.rows.find? fun row => row.1.family = f).elim 0 Prod.snd)]
  | some _ => ((shelf t f).rows.map Prod.snd).mergeSort fun a b => !(b.1 < a.1)

/-- The lines of a family. -/
def familyText (t : Tally) (f : Family) : String :=
  match samples t f with
  | [] => ""
  | rows =>
    "# HELP " ++ f.name ++ " " ++ f.help ++ "\n" ++ "# TYPE " ++ f.name ++ " counter\n" ++
      String.join (rows.map fun (value, n) =>
        sampleName f.name f.label? value ++ " " ++ toString n ++ "\n")

/-- The text of all counters. -/
def text (t : Tally) : String := String.join (Family.all.map (familyText t))

end Exposition

/-- The name of a counter's sample, without the prefix that sets the program apart. -/
def Counter.sampleName (c : Counter) : String :=
  Exposition.sampleName c.family.shortName c.family.label? c.labelValue

end Upkeep
