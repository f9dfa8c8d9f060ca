/-!
# Texts of a TOML document

A basic text stands between double quotes and may hold escapes, a literal text stands between
single quotes and holds none.  Both have a form with tripled quotes that may run over several
lines; there a newline is written `\n` whatever it was, and a basic text may break a line with
a backslash.  Every reader takes the characters after the opening quotes and gives the text
and the characters after the closing ones, or `none` if there is no such text.
-/

namespace Upkeep.Toml

/-- A blank within a line. -/
def isSpace (c : Char) : Bool := c = ' ' || c = '\t'

/-- Whether a character may stand for itself in a comment or a text: no control but the tab. -/
def isPlain (c : Char) : Bool := c = '\t' || (0x20 ≤ c.toNat && c.toNat ≠ 0x7f)

/-- The value of a hexadecimal digit. -/
def hexDigit? (c : Char) : Option Nat :=
  if '0' ≤ c ∧ c ≤ '9' then some (c.toNat - '0'.toNat)
  else if 'a' ≤ c ∧ c ≤ 'f' then some (c.toNat - 'a'.toNat + 10)
  else if 'A' ≤ c ∧ c ≤ 'F' then some (c.toNat - 'A'.toNat + 10)
  else none

/-- The number that hexadecimal digits write. -/
def hexNumber? (digits : List Char) : Option Nat :=
  digits.foldlM (fun n c => (hexDigit? c).map fun d => 16 * n + d) 0

/-- The character with a number written in hexadecimal digits. -/
def hexChar? (digits : List Char) : Option Char := do
  let n ← hexNumber? digits
  if h : n.isValidChar then some (Char.ofNatAux n h) else none

/-- The character that a letter stands for after a backslash. -/
def escapeLetter? (c : Char) : Option Char :=
  if c = 'b' then some '\x08'
  else if c = 't' then some '\t'
  else if c = 'n' then some '\n'
  else if c = 'f' then some '\x0c'
  else if c = 'r' then some '\r'
  else if c = '"' then some '"'
  else if c = '\\' then some '\\'
  else none

/-- The text of the characters read so far, the last one first. -/
def textOf (read : List Char) : String := String.ofList read.reverse

/-- The rest of a basic text. -/
def basicText (read : List Char) : List Char → Option (String × List Char)
  | '"' :: rest => some (textOf read, rest)
  | '\\' :: 'u' :: a :: b :: c :: d :: rest =>
    match hexChar? [a, b, c, d] with
    | some x => basicText (x :: read) rest
    | none => none
  | '\\' :: 'U' :: a :: b :: c :: d :: e :: f :: g :: h :: rest =>
    match hexChar? [a, b, c, d, e, f, g, h] with
    | some x => basicText (x :: read) rest
    | none => none
  | '\\' :: c :: rest =>
    match escapeLetter? c with
    | some x => basicText (x :: read) rest
    | none => none
  | c :: rest => if isPlain c then basicText (c :: read) rest else none
  | [] => none

/-- The rest of a literal text. -/
def literalText (read : List Char) : List Char → Option (String × List Char)
  | '\'' :: rest => some (textOf read, rest)
  | c :: rest => if isPlain c then literalText (c :: read) rest else none
  | [] => none

/-- Where the reader of a basic text of several lines stands. -/
inductive LineBreak
  /-- Within the text. -/
  | none
  /-- After a backslash that must end its line. -/
  | awaited
  /-- After such a line, where blanks and newlines are dropped. -/
  | taken
  deriving Repr, DecidableEq

/-- The rest of a basic text of several lines.  One or two quotes belong to the text, also
right before the closing ones. -/
def basicLines (at_ : LineBreak) (read : List Char) : List Char → Option (String × List Char)
  | [] => none
  | '\r' :: '\n' :: rest =>
    match at_ with
    | .none => basicLines .none ('\n' :: read) rest
    | _ => basicLines .taken read rest
  | '\n' :: rest =>
    match at_ with
    | .none => basicLines .none ('\n' :: read) rest
    | _ => basicLines .taken read rest
  | '"' :: '"' :: '"' :: '"' :: '"' :: rest =>
    if at_ = .awaited then none else some (textOf ('"' :: '"' :: read), rest)
  | '"' :: '"' :: '"' :: '"' :: rest =>
    if at_ = .awaited then none else some (textOf ('"' :: read), rest)
  | '"' :: '"' :: '"' :: rest =>
    if at_ = .awaited then none else some (textOf read, rest)
  | '\\' :: 'u' :: a :: b :: c :: d :: rest =>
    match at_, hexChar? [a, b, c, d] with
    | .awaited, _ | _, none => none
    | _, some x => basicLines .none (x :: read) rest
  | '\\' :: 'U' :: a :: b :: c :: d :: e :: f :: g :: h :: rest =>
    match at_, hexChar? [a, b, c, d, e, f, g, h] with
    | .awaited, _ | _, none => none
    | _, some x => basicLines .none (x :: read) rest
  | '\\' :: '\n' :: rest => if at_ = .awaited then none else basicLines .taken read rest
  | '\\' :: '\r' :: '\n' :: rest => if at_ = .awaited then none else basicLines .taken read rest
  | '\\' :: c :: rest =>
    if at_ = .awaited then none
    else if isSpace c then basicLines .awaited read rest
    else
      match escapeLetter? c with
      | some x => basicLines .none (x :: read) rest
      | none => none
  | c :: rest =>
    if isSpace c && at_ ≠ .none then basicLines at_ read rest
    else if at_ ≠ .awaited && isPlain c then basicLines .none (c :: read) rest
    else none

/-- The rest of a literal text of several lines. -/
def literalLines (read : List Char) : List Char → Option (String × List Char)
  | [] => none
  | '\r' :: '\n' :: rest => literalLines ('\n' :: read) rest
  | '\n' :: rest => literalLines ('\n' :: read) rest
  | '\'' :: '\'' :: '\'' :: '\'' :: '\'' :: rest => some (textOf ('\'' :: '\'' :: read), rest)
  | '\'' :: '\'' :: '\'' :: '\'' :: rest => some (textOf ('\'' :: read), rest)
  | '\'' :: '\'' :: '\'' :: rest => some (textOf read, rest)
  | c :: rest => if isPlain c then literalLines (c :: read) rest else none

/-- The characters after a newline that may stand right after tripled opening quotes. -/
def skipFirstNewline : List Char → List Char
  | '\n' :: rest => rest
  | '\r' :: '\n' :: rest => rest
  | rest => rest

/-- A text in any of the four forms, from its opening quotes on. -/
def anyText : List Char → Option (String × List Char)
  | '"' :: '"' :: '"' :: rest => basicLines .none [] (skipFirstNewline rest)
  | '"' :: rest => basicText [] rest
  | '\'' :: '\'' :: '\'' :: rest => literalLines [] (skipFirstNewline rest)
  | '\'' :: rest => literalText [] rest
  | _ => none

end Upkeep.Toml
