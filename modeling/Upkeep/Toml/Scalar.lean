import Upkeep.Toml.Text
import Upkeep.Toml.Value

/-!
# Numbers, dates and words of a TOML document

A value that is no text, array or table is one word of letters, digits, signs, points and
colons; only a date and a time of day may be two words with a space between them.
`Scalar.ofWord?` reads a word.
-/

namespace Upkeep.Toml

namespace Scalar

/-- A decimal digit. -/
def isDigit (c : Char) : Bool := '0' ≤ c && c ≤ '9'

/-- Digits with single underscores between them, without the underscores. -/
def ungroup? (isDigit : Char → Bool) : List Char → Option (List Char)
  | [] => none
  | [c] => if isDigit c then some [c] else none
  | c :: '_' :: rest => if isDigit c then (ungroup? isDigit rest).map (c :: ·) else none
  | c :: rest => if isDigit c then (ungroup? isDigit rest).map (c :: ·) else none

/-- The number that digits of a base write. -/
def number (base : Nat) (digits : List Char) : Nat :=
  digits.foldl (fun n c => base * n + (hexDigit? c).getD 0) 0

/-- A sign and what follows it; no sign is no minus. -/
def sign : List Char → Bool × List Char
  | '-' :: rest => (true, rest)
  | '+' :: rest => (false, rest)
  | rest => (false, rest)

/-- A decimal whole number without its sign: it starts with a zero only if it is zero. -/
def wholeDigits? (cs : List Char) : Option (List Char) :=
  match cs with
  | '0' :: _ :: _ => none
  | _ => ungroup? isDigit cs

/-- A whole number, which must be one that 64 bits hold. -/
def inRange (n : Int) : Option Value :=
  if -9223372036854775808 ≤ n ∧ n ≤ 9223372036854775807 then some (.integer n) else none

/-- A whole number in a base other than ten. -/
def based? (base : Nat) (isDigit : Char → Bool) (cs : List Char) : Option Value := do
  inRange (number base (← ungroup? isDigit cs))

/-- A whole number. -/
def integer? : List Char → Option Value
  | '0' :: 'x' :: rest => based? 16 (fun c => (hexDigit? c).isSome) rest
  | '0' :: 'o' :: rest => based? 8 (fun c => '0' ≤ c && c ≤ '7') rest
  | '0' :: 'b' :: rest => based? 2 (fun c => c = '0' || c = '1') rest
  | cs => do
    let (negative, cs) := sign cs
    let n : Int := number 10 (← wholeDigits? cs)
    inRange (if negative then -n else n)

/-- An exponent, after its letter. -/
def exponent? (cs : List Char) : Option Int := do
  let (negative, cs) := sign cs
  let n : Int := number 10 (← ungroup? isDigit cs)
  return if negative then -n else n

/-- A number with a point or an exponent; one that is too large is refused, but not one that
is too far below zero. -/
def float? (cs : List Char) : Option Value := do
  let (negative, cs) := sign cs
  let (mantissa, tail) := cs.span fun c => c ≠ 'e' && c ≠ 'E'
  let (whole, fraction) := mantissa.span (· ≠ '.')
  if tail.isEmpty && fraction.isEmpty then none
  let whole ← wholeDigits? whole
  let fraction ← if fraction.isEmpty then some [] else ungroup? isDigit (fraction.drop 1)
  let exponent ← if tail.isEmpty then some 0 else exponent? (tail.drop 1)
  let x := Binary64.ofDecimal negative (number 10 (whole ++ fraction)) (exponent - fraction.length)
  if x = .infinite false then none else some (.float x)

/-- Infinity or no number, with or without a sign. -/
def special? (cs : List Char) : Option Value :=
  let (negative, cs) := sign cs
  if cs = ['i', 'n', 'f'] then some (.float (.infinite negative))
  else if cs = ['n', 'a', 'n'] then some (.float .nan)
  else none

/-- A number of two digits within bounds. -/
def twoDigits? (least most : Nat) (a b : Char) : Option Nat :=
  if isDigit a && isDigit b then
    let n := number 10 [a, b]
    if least ≤ n ∧ n ≤ most then some n else none
  else none

/-- How many days a month has. -/
def daysIn (year month : Nat) : Nat :=
  if month = 2 then
    if year % 4 = 0 ∧ (year % 100 ≠ 0 ∨ year % 400 = 0) then 29 else 28
  else if month ∈ [4, 6, 9, 11] then 30
  else 31

/-- The characters after a date. -/
def afterDate? : List Char → Option (List Char)
  | y₁ :: y₂ :: y₃ :: y₄ :: '-' :: m₁ :: m₂ :: '-' :: d₁ :: d₂ :: rest => do
    if [y₁, y₂, y₃, y₄].all isDigit then
      let month ← twoDigits? 1 12 m₁ m₂
      let _ ← twoDigits? 1 (daysIn (number 10 [y₁, y₂, y₃, y₄]) month) d₁ d₂
      return rest
    else none
  | _ => none

/-- The characters after a time of day, which may count a leap second and fractions. -/
def afterTime? : List Char → Option (List Char)
  | h₁ :: h₂ :: ':' :: m₁ :: m₂ :: ':' :: s₁ :: s₂ :: rest => do
    let _ ← twoDigits? 0 23 h₁ h₂
    let _ ← twoDigits? 0 59 m₁ m₂
    let _ ← twoDigits? 0 60 s₁ s₂
    match rest with
    | '.' :: fraction =>
      if (fraction.takeWhile isDigit).isEmpty then none else return fraction.dropWhile isDigit
    | rest => return rest
  | _ => none

/-- Whether characters are the offset of a time zone, or none. -/
def isOffset : List Char → Bool
  | [] | ['Z'] | ['z'] => true
  | [s, h₁, h₂, ':', m₁, m₂] =>
    (s = '+' || s = '-') && (twoDigits? 0 23 h₁ h₂).isSome && (twoDigits? 0 59 m₁ m₂).isSome
  | _ => false

/-- Whether characters are a time of day with or without an offset. -/
def isZonedTime (cs : List Char) : Bool := ((afterTime? cs).map isOffset).getD false

/-- A date, a time of day, or a date and a time of day with the letter between them. -/
def moment? (cs : List Char) : Option Value :=
  match afterDate? cs with
  | some [] => some (.moment (String.ofList cs))
  | some (c :: time) =>
    if (c = 'T' || c = 't') && isZonedTime time then some (.moment (String.ofList cs)) else none
  | none =>
    match afterTime? cs with
    | some [] => some (.moment (String.ofList cs))
    | _ => none

/-- Whether characters are a date and nothing else. -/
def isDate (cs : List Char) : Bool := afterDate? cs = some []

/-- The value of a word. -/
def ofWord? (cs : List Char) : Option Value :=
  if cs = "true".toList then some (.boolean true)
  else if cs = "false".toList then some (.boolean false)
  else special? cs <|> moment? cs <|> float? cs <|> integer? cs

/-- A character of a word. -/
def isWordChar (c : Char) : Bool := c.isAlphanum || c ∈ ['+', '-', '_', '.', ':']

/-- Reads a word, or a date and a time of day with a space between them. -/
def read? (cs : List Char) : Option (Value × List Char) :=
  let (word, rest) := cs.span isWordChar
  match rest with
  | ' ' :: c :: _ =>
    if isDate word && isDigit c then
      let (time, rest) := rest.tail.span isWordChar
      if isZonedTime time then some (.moment (String.ofList (word ++ ' ' :: time)), rest) else none
    else (ofWord? word).map (·, rest)
  | rest => (ofWord? word).map (·, rest)

end Scalar

end Upkeep.Toml
