import Upkeep.Number.Binary64

/-!
# The shortest decimal that reads back

A positive double precision number `m * 2 ^ q` is written with the fewest digits that still
round to it, and among those with the digits nearest to it.  The reals that round to it form
an interval around it, whose ends belong to it if `m` is even.  For each count of digits there
are two points of the decimal grid beside the number; the first grid with one of them in the
interval gives the digits.  The result is written positionally.
-/

namespace Upkeep

namespace Binary64

/-- A fraction of natural numbers; the second is positive. -/
structure Ratio where
  /-- The number above the line. -/
  num : Nat
  /-- The number below the line. -/
  den : Nat
  deriving Repr, DecidableEq

namespace Ratio

/-- Whether a fraction is below another. -/
def lt (a b : Ratio) : Bool := a.num * b.den < b.num * a.den

/-- Whether a fraction is at most another. -/
def le (a b : Ratio) : Bool := a.num * b.den ≤ b.num * a.den

/-- `n * 2 ^ e` as a fraction. -/
def ofBinary (n : Nat) (e : Int) : Ratio :=
  let (num, den) := scale n 1 e
  ⟨num, den⟩

/-- `n * 10 ^ e` as a fraction. -/
def ofDecimal (n : Nat) (e : Int) : Ratio :=
  if 0 ≤ e then ⟨n * Nat.pow 10 e.toNat, 1⟩ else ⟨n, Nat.pow 10 (-e).toNat⟩

end Ratio

/-- The reals that round to a number. -/
structure Interval where
  /-- The lower end. -/
  low : Ratio
  /-- The upper end. -/
  high : Ratio
  /-- Whether the ends round to the number as well. -/
  closed : Bool

/-- Whether a fraction lies in the interval. -/
def Interval.contains (i : Interval) (r : Ratio) : Bool :=
  if i.closed then i.low.le r && r.le i.high else i.low.lt r && r.lt i.high

/-- The reals that round to `m * 2 ^ q`; below a power of two the numbers lie twice as close. -/
def interval (m : Nat) (q : Int) : Interval where
  low :=
    if m = Nat.pow 2 52 ∧ -1074 < q then .ofBinary (4 * m - 1) (q - 2)
    else .ofBinary (2 * m - 1) (q - 1)
  high := .ofBinary (2 * m + 1) (q - 1)
  closed := m % 2 = 0

/-- The place of the first digit: the least `k` with `r < 10 ^ k`, near the guess `k`. -/
def firstPlace (r : Ratio) : (steps : Nat) → Int → Int
  | 0, k => k
  | steps + 1, k => if r.lt (.ofDecimal 1 k) then k else firstPlace r steps (k + 1)

/-- A guess for the place of the first digit of `m * 2 ^ q` that is not above it. -/
def placeGuess (m : Nat) (q : Int) : Int := ((Nat.log2 m : Int) + q) * 30103 / 100000 - 1

/-- The point of a decimal grid that is nearest to a number, if it rounds to it: one of the
two points beside the number, and the upper one if both are equally near. -/
def nearestOnGrid (i : Interval) (value : Ratio) (unit : Int) : Option Nat :=
  let (num, den) :=
    if 0 ≤ unit then (value.num, value.den * Nat.pow 10 unit.toNat)
    else (value.num * Nat.pow 10 (-unit).toNat, value.den)
  let below := num / den
  let belowFits := i.contains (.ofDecimal below unit)
  let aboveFits := i.contains (.ofDecimal (below + 1) unit)
  if belowFits && aboveFits then
    some (if 2 * (num % den) < den then below else below + 1)
  else if belowFits then some below
  else if aboveFits then some (below + 1)
  else none

/-- The first grid, from `unit` on downwards, with a point that rounds to the number. -/
def firstGrid (i : Interval) (value : Ratio) : (steps : Nat) → Int → Nat × Int
  | 0, unit => (0, unit)
  | steps + 1, unit =>
    match nearestOnGrid i value unit with
    | some d => (d, unit)
    | none => firstGrid i value steps (unit - 1)

/-- A decimal without the zeros at its end, of which at most `steps` are dropped. -/
def dropZeros : (steps : Nat) → Nat × Int → Nat × Int
  | 0, decimal => decimal
  | steps + 1, (d, e) => if d % 10 = 0 then dropZeros steps (d / 10, e + 1) else (d, e)

/-- The shortest decimal `d * 10 ^ e` for a positive number `m * 2 ^ q`. -/
def shortest (m : Nat) (q : Int) : Nat × Int :=
  let value := Ratio.ofBinary m q
  let place := firstPlace value 4 (placeGuess m q)
  dropZeros 20 (firstGrid (interval m q) value 20 (place - 1))

/-- A decimal `d * 10 ^ e` written positionally, always with a point. -/
def positional (d : Nat) (e : Int) : String :=
  let digits := Nat.toDigits 10 d
  if 0 ≤ e then String.ofList (digits ++ List.replicate e.toNat '0') ++ ".0"
  else
    let places := (-e).toNat
    let padded := List.replicate (places + 1 - digits.length) '0' ++ digits
    String.ofList (padded.take (padded.length - places)) ++ "." ++
      String.ofList (padded.drop (padded.length - places))

/-- The text of a number. -/
def text : Binary64 → String
  | finite negative m q =>
    let sign := if negative then "-" else ""
    if m = 0 then sign ++ "0.0"
    else
      let (d, e) := shortest m q
      sign ++ positional d e
  | infinite negative => if negative then "-inf" else "inf"
  | nan => "NaN"

end Binary64

end Upkeep
