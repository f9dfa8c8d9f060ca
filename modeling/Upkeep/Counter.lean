import Upkeep.Table

/-!
# Counters

What the health loop counts.  A `Counter` is one sample of the monitoring endpoint: a family,
and in a labelled family the value of its label.  A `Tally` holds how often each was recorded;
its view is `Tally.count`.
-/

namespace Upkeep

/-- A counted kind of event. -/
inductive Counter
  /-- Cycles that ran. -/
  | cycles
  /-- Ticks passed over because a cycle was still running. -/
  | skippedCycles
  /-- Failures that escaped a check, by the name of the check. -/
  | checkErrors (check : String)
  /-- Recoveries of a database, by result. -/
  | recoveries (result : String)
  /-- Heartbeat rounds, by result. -/
  | rounds (result : String)
  /-- Decisions on a silent peer, by outcome. -/
  | demotions (outcome : String)
  /-- Local copies found without a status. -/
  | missingStatuses
  deriving Repr, DecidableEq

/-- How often each counter was recorded. -/
abbrev Tally := Table Counter Nat

namespace Tally

/-- How often a counter was recorded. -/
def count (t : Tally) (c : Counter) : Nat := (t.find? c).getD 0

/-- Records an event once. -/
def record (t : Tally) (c : Counter) : Tally := t.put c (t.count c + 1)

/-- Records an event a number of times; none at all leaves no sample behind. -/
def recordTimes (t : Tally) (c : Counter) (n : Nat) : Tally :=
  if n = 0 then t else t.put c (t.count c + n)

/-- What was recorded in `later` beyond `earlier`, for each counter that grew. -/
def growth (earlier later : Tally) : List (Counter × Nat) :=
  later.rows.filterMap fun (c, n) =>
    let gained := n - earlier.count c
    if gained = 0 then none else some (c, gained)

@[simp] theorem count_empty (c : Counter) : count .empty c = 0 := rfl

@[simp] theorem count_record (t : Tally) (c c' : Counter) :
    (t.record c).count c' = if c = c' then t.count c + 1 else t.count c' := by
  by_cases h : c = c' <;> simp [record, count, h]

theorem count_recordTimes (t : Tally) (c c' : Counter) (n : Nat) :
    (t.recordTimes c n).count c' = if c = c' then t.count c + n else t.count c' := by
  by_cases hn : n = 0
  · by_cases h : c = c' <;> simp [recordTimes, hn, h]
  · by_cases h : c = c' <;> simp [recordTimes, hn, count, h]

/-- Recording a number of times is recording once and then the other times. -/
theorem recordTimes_succ (t : Tally) (c : Counter) (n : Nat) :
    t.recordTimes c (n + 1) = (t.record c).recordTimes c n := by
  by_cases hn : n = 0
  · simp [recordTimes, record, hn]
  · simp [recordTimes, record, hn, Table.put_put, count, Nat.add_comm 1, Nat.add_assoc]

end Tally

end Upkeep
