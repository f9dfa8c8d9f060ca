import Upkeep.Toml.Text

/-!
# Addresses to listen at

An address is an IP address and a port.  `Address.ofString?` accepts four decimal bytes
without leading zeros and a port (`127.0.0.1:80`), or up to eight groups of hexadecimal digits
in brackets and a port (`[::1]:80`), where one run of zero groups may be left out, the last two
groups may be written as four bytes, and a zone may follow after a percent sign.
-/

namespace Upkeep

/-- An IP address and a port. -/
inductive Address
  /-- Four bytes and a port. -/
  | v4 (bytes : List Nat) (port : Nat)
  /-- Eight groups, a zone and a port. -/
  | v6 (groups : List Nat) (zone : Nat) (port : Nat)
  deriving Repr, DecidableEq

namespace Address

/-- The value of a digit in a base up to sixteen. -/
def digit? (base : Nat) (c : Char) : Option Nat :=
  (Toml.hexDigit? c).bind fun d => if d < base then some d else none

/-- A number of at least one digit that is below `bound`, and the characters after it. -/
def number? (base bound : Nat) (cs : List Char) : Option (Nat × List Char) :=
  let (digits, rest) := cs.span fun c => (digit? base c).isSome
  let n := digits.foldl (fun n c => base * n + (digit? base c).getD 0) 0
  if digits.isEmpty || bound ≤ n then none else some (n, rest)

/-- A decimal byte without a leading zero. -/
def byte? (cs : List Char) : Option (Nat × List Char) :=
  match cs with
  | '0' :: c :: _ => if (digit? 10 c).isSome then none else number? 10 256 cs
  | cs => number? 10 256 cs

/-- A group of at most four hexadecimal digits. -/
def group? (cs : List Char) : Option (Nat × List Char) :=
  if 4 < (cs.takeWhile fun c => (digit? 16 c).isSome).length then none else number? 16 65536 cs

/-- The characters after a given one. -/
def skip? (c : Char) : List Char → Option (List Char)
  | c' :: rest => if c' = c then some rest else none
  | [] => none

/-- Bytes with points between them. -/
def bytes? : (count : Nat) → List Char → Option (List Nat × List Char)
  | 0, cs => some ([], cs)
  | 1, cs => (byte? cs).map fun (b, rest) => ([b], rest)
  | count + 1, cs => do
    let (b, rest) ← byte? cs
    let (bs, rest) ← bytes? count (← skip? '.' rest)
    return (b :: bs, rest)

/-- Four bytes as two groups. -/
def groupsOfBytes : List Nat → List Nat
  | [a, b, c, d] => [256 * a + b, 256 * c + d]
  | _ => []

/-- At most `room` groups with colons between them, as many as there are; the last two may be
written as four bytes, which is told as well.  `first` holds before the first group. -/
def groups : (room : Nat) → (first : Bool) → List Char → List Nat × Bool × List Char
  | 0, _, cs => ([], false, cs)
  | room + 1, first, cs =>
    match if first then some cs else skip? ':' cs with
    | none => ([], false, cs)
    | some start =>
      match if room = 0 then none else bytes? 4 start with
      | some (bytes, rest) => (groupsOfBytes bytes, true, rest)
      | none =>
        match group? start with
        | none => ([], false, cs)
        | some (g, rest) =>
          let (gs, embedded, rest) := groups room false rest
          (g :: gs, embedded, rest)

/-- Eight groups, of which one run of zeros may be left out between two colons. -/
def eightGroups? (cs : List Char) : Option (List Nat × List Char) := do
  let (head, embedded, rest) := groups 8 true cs
  if head.length = 8 then return (head, rest)
  if embedded then none
  let rest ← skip? ':' (← skip? ':' rest)
  let (tail, _, rest) := groups (7 - head.length) true rest
  return (head ++ List.replicate (8 - head.length - tail.length) 0 ++ tail, rest)

/-- A colon and a port. -/
def port? (cs : List Char) : Option (Nat × List Char) := do
  number? 10 65536 (← skip? ':' cs)

/-- A zone after a percent sign; zero if there is none. -/
def zone (cs : List Char) : Nat × List Char :=
  ((skip? '%' cs).bind (number? 10 (Nat.pow 2 32))).getD (0, cs)

/-- The address that characters write. -/
def ofChars? (cs : List Char) : Option Address :=
  match cs with
  | '[' :: rest => do
    let (gs, rest) ← eightGroups? rest
    let (zone, rest) := zone rest
    let (port, rest) ← port? (← skip? ']' rest)
    if rest.isEmpty then return .v6 gs zone port else none
  | cs => do
    let (bs, rest) ← bytes? 4 cs
    let (port, rest) ← port? rest
    if rest.isEmpty then return .v4 bs port else none

/-- The address that a text writes. -/
def ofString? (s : String) : Option Address := ofChars? s.toList

/-- Four bytes with points between them. -/
def renderBytes (bytes : List Nat) : String := ".".intercalate (bytes.map toString)

/-- Groups with colons between them. -/
def renderGroups (groups : List Nat) : String :=
  ":".intercalate (groups.map fun g => String.ofList (Nat.toDigits 16 g))

/-- The length of the run of zeros at the start. -/
def zeroRun (groups : List Nat) : Nat := (groups.takeWhile (· = 0)).length

/-- Where the longest run of zeros starts, and its length; of equal runs the first. -/
def longestRun : (start : Nat) → List Nat → Nat × Nat
  | _, [] => (0, 0)
  | start, g :: rest =>
    let here := zeroRun (g :: rest)
    let later := longestRun (start + 1) rest
    if later.2 ≤ here then (start, here) else later

/-- Eight groups; the longest run of more than one zero is left out, and an address of the
older kind that is embedded is written as four bytes. -/
def renderV6 (groups : List Nat) : String :=
  match groups with
  | [0, 0, 0, 0, 0, 0xffff, a, b] =>
    "::ffff:" ++ renderBytes [a / 256, a % 256, b / 256, b % 256]
  | groups =>
    let (start, length) := longestRun 0 groups
    if length ≤ 1 then renderGroups groups
    else renderGroups (groups.take start) ++ "::" ++ renderGroups (groups.drop (start + length))

/-- The text of an address. -/
def render : Address → String
  | v4 bytes port => renderBytes bytes ++ ":" ++ toString port
  | v6 groups zone port =>
    let zoneText := if zone = 0 then "" else "%" ++ toString zone
    "[" ++ renderV6 groups ++ zoneText ++ "]:" ++ toString port

/-- What is said of a text that is no address. -/
def malformed : String := "invalid socket address syntax"

end Address

end Upkeep
