import Upkeep.Toml.Assembly
import Upkeep.Toml.Scalar

/-!
# Reading a TOML document

A document is a list of lines: comments, values under dotted keys, and headers.  Values may
run over several lines within brackets and tripled quotes.  Arrays, tables between braces and
dotted keys are refused from a depth of 80 on.
-/

namespace Upkeep.Toml

namespace Document

/-- The depth from which on nesting is refused. -/
def depthLimit : Nat := 80

/-- The characters after blanks. -/
def skipSpaces (cs : List Char) : List Char := cs.dropWhile isSpace

/-- The characters after the end of a line, which may be the end of the text. -/
def lineEnd? : List Char → Option (List Char)
  | [] => some []
  | '\n' :: rest => some rest
  | '\r' :: '\n' :: rest => some rest
  | _ => none

/-- The characters after what may follow a value or a header on its line. -/
def restOfLine? (cs : List Char) : Option (List Char) :=
  match skipSpaces cs with
  | '#' :: rest => lineEnd? (rest.dropWhile isPlain)
  | rest => lineEnd? rest

/-- The characters after blanks, newlines and comments, as they may stand in an array.  In a
comment, `inComment` holds. -/
def skipBlankLines (inComment : Bool) : List Char → Option (List Char)
  | [] => if inComment then none else some []
  | '\n' :: rest => skipBlankLines false rest
  | '\r' :: '\n' :: rest => skipBlankLines false rest
  | '\r' :: rest => if inComment then none else some ('\r' :: rest)
  | c :: rest =>
    if inComment then if isPlain c then skipBlankLines true rest else none
    else if c = '#' then skipBlankLines true rest
    else if isSpace c then skipBlankLines false rest
    else some (c :: rest)

/-- A character of a key without quotes. -/
def isBareKeyChar (c : Char) : Bool := c.isAlphanum || c = '-' || c = '_'

/-- One part of a dotted key. -/
def keyPart? : List Char → Option (String × List Char)
  | '"' :: rest => basicText [] rest
  | '\'' :: rest => literalText [] rest
  | cs =>
    let (key, rest) := cs.span isBareKeyChar
    if key.isEmpty then none else some (String.ofList key, rest)

/-- The parts of a dotted key, with blanks around each; at most `limit` of them. -/
def keyParts? : (limit : Nat) → List Char → Option (List String × List Char)
  | 0, _ => none
  | limit + 1, cs => do
    let (part, rest) ← keyPart? (skipSpaces cs)
    match skipSpaces rest with
    | '.' :: rest =>
      let (parts, rest) ← keyParts? limit rest
      return (part :: parts, rest)
    | rest => return ([part], rest)

/-- A dotted key: the path to its last part, that part, and the characters after it. -/
def key? (cs : List Char) : Option ((List String × String) × List Char) := do
  let (parts, rest) ← keyParts? (depthLimit - 1) cs
  return ((parts.dropLast, ← parts.getLast?), rest)

/-- Rows of a table between braces: each adds a value under a dotted key. -/
def closedTable? (rows : List ((List String × String) × Value)) : Option Rows :=
  rows.foldlM (fun table ((path, key), v) => Rows.insertDotted key v path table) []

mutual

/-- A value and the characters after it.  `fuel` bounds the number of steps, of which there
are at most two for each character; `depth` says how deep the value may nest. -/
def value? : (fuel : Nat) → (depth : Nat) → List Char → Option (Value × List Char)
  | 0, _, _ => none
  | fuel + 1, depth, cs =>
    match cs with
    | '"' :: _ | '\'' :: _ => (anyText cs).map fun (s, rest) => (.text s, rest)
    | '[' :: rest =>
      match depth with
      | 0 => none
      | depth + 1 => (elements? fuel depth rest).map fun (vs, rest) => (.array false vs, rest)
    | '\x7b' :: rest =>
      match depth with
      | 0 => none
      | depth + 1 => do
        let (rows, rest) ← match skipSpaces rest with
          | '\x7d' :: rest => some ([], rest)
          | rest => rows? fuel depth rest
        return (.table .closed (← closedTable? rows), rest)
    | cs => Scalar.read? cs

/-- The elements of an array up to its closing bracket. -/
def elements? : (fuel : Nat) → (depth : Nat) → List Char → Option (List Value × List Char)
  | 0, _, _ => none
  | fuel + 1, depth, cs => do
    match ← skipBlankLines false cs with
    | ']' :: rest => return ([], rest)
    | cs =>
      let (v, rest) ← value? fuel depth cs
      match ← skipBlankLines false rest with
      | ',' :: rest =>
        let (vs, rest) ← elements? fuel depth rest
        return (v :: vs, rest)
      | ']' :: rest => return ([v], rest)
      | _ => none

/-- The rows of a table between braces, of which there is at least one, up to its brace. -/
def rows? : (fuel : Nat) → (depth : Nat) → List Char →
    Option (List ((List String × String) × Value) × List Char)
  | 0, _, _ => none
  | fuel + 1, depth, cs => do
    let (key, rest) ← key? cs
    match rest with
    | '=' :: rest =>
      let (v, rest) ← value? fuel depth (skipSpaces rest)
      match skipSpaces rest with
      | ',' :: rest =>
        let (rows, rest) ← rows? fuel depth rest
        return ((key, v) :: rows, rest)
      | '\x7d' :: rest => return ([(key, v)], rest)
      | _ => none
    | _ => none

end

/-- A line with a value under a dotted key. -/
def valueLine? (cs : List Char) (a : Assembly) : Option (Assembly × List Char) := do
  let ((path, key), rest) ← key? cs
  match rest with
  | '=' :: rest =>
    let (v, rest) ← value? (2 * rest.length + 2) (depthLimit - 1) (skipSpaces rest)
    return (← a.insert path key v, ← restOfLine? rest)
  | _ => none

/-- One line of a document, whose blanks at the start were skipped. -/
def line? (cs : List Char) (a : Assembly) : Option (Assembly × List Char) :=
  match cs with
  | '#' :: _ | '\n' :: _ | '\r' :: _ => (restOfLine? cs).map (a, ·)
  | '[' :: '[' :: rest => do
    let ((path, key), rest) ← key? rest
    match rest with
    | ']' :: ']' :: rest => return (← a.openElement path key, ← restOfLine? rest)
    | _ => none
  | '[' :: rest => do
    let ((path, key), rest) ← key? rest
    match rest with
    | ']' :: rest => return (← a.openTable path key, ← restOfLine? rest)
    | _ => none
  | cs => valueLine? cs a

/-- The lines of a document; each line takes at least one character. -/
def lines? : (fuel : Nat) → List Char → Assembly → Option Assembly
  | 0, _, _ => none
  | fuel + 1, cs, a =>
    match skipSpaces cs with
    | [] => some a
    | cs => do
      let (a, rest) ← line? cs a
      lines? fuel rest a

/-- The characters after a byte order mark at the start. -/
def skipMark : List Char → List Char
  | '\ufeff' :: rest => rest
  | rest => rest

/-- The table that a document writes. -/
def parse? (s : String) : Option Rows := do
  let cs := skipMark s.toList
  let a ← lines? (cs.length + 1) cs {}
  a.complete

end Document

end Upkeep.Toml
