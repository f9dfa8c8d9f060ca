/-!
# Double precision numbers

A finite number of this kind is a sign and `m * 2 ^ q`, with `m` below `2 ^ 53` and `q` from
`-1074` to `971`.  `Binary64.ofDecimal` rounds `d * 10 ^ e` to the nearest of them, and of two
that are equally near to the one with an even `m`; what is too large becomes infinite.
All of it is arithmetic on natural numbers, so it can be computed in a proof.
-/

namespace Upkeep

/-- A double precision number. -/
inductive Binary64
  /-- The number `m * 2 ^ q`, or its negative. -/
  | finite (negative : Bool) (m : Nat) (q : Int)
  /-- An infinite number. -/
  | infinite (negative : Bool)
  /-- No number. -/
  | nan
  deriving Repr, DecidableEq

namespace Binary64

/-- The quotient rounded to the nearest natural number, a half to the even one. -/
def roundDiv (n d : Nat) : Nat :=
  let quotient := n / d
  let twice := 2 * (n % d)
  if twice < d then quotient
  else if twice = d then quotient + quotient % 2
  else quotient + 1

/-- A quotient times a power of two, as a quotient. -/
def scale (n d : Nat) (e : Int) : Nat × Nat :=
  if 0 ≤ e then (n * Nat.pow 2 e.toNat, d) else (n, d * Nat.pow 2 (-e).toNat)

/-- The greatest `k` with `2 ^ k ≤ n / d`, for positive `n` and `d`. -/
def floorLog2 (n d : Nat) : Int :=
  let k : Int := (Nat.log2 n : Int) - Nat.log2 d
  let (n', d') := scale n d (-k)
  if d' ≤ n' then k else k - 1

/-- The number nearest to `n / d`, for positive `n` and `d`. -/
def ofQuotient (negative : Bool) (n d : Nat) : Binary64 :=
  let q : Int := max (-1074) (floorLog2 n d - 52)
  let (n', d') := scale n d (-q)
  let m := roundDiv n' d'
  let (m, q) := if m = Nat.pow 2 53 then (Nat.pow 2 52, q + 1) else (m, q)
  if 971 < q then infinite negative else finite negative m q

/-- The number nearest to `d * 10 ^ e`.  The size of an extreme one is seen from the count of
its digits alone. -/
def ofDecimal (negative : Bool) (d : Nat) (e : Int) : Binary64 :=
  if d = 0 then finite negative 0 (-1074)
  else
    let size : Int := (Nat.toDigits 10 d).length + e
    if 310 < size then infinite negative
    else if size < -330 then finite negative 0 (-1074)
    else if 0 ≤ e then ofQuotient negative (d * Nat.pow 10 e.toNat) 1
    else ofQuotient negative d (Nat.pow 10 (-e).toNat)

-- one is an exact power of two, and a tenth is rounded
example : ofDecimal false 1 0 = finite false (Nat.pow 2 52) (-52) := by decide

example : ofDecimal false 1 (-1) = finite false 7205759403792794 (-56) := by decide

end Binary64

end Upkeep
