import Upkeep.Number.Binary64

/-!
# Values of a TOML document

The rows of a table stay in the order in which they were completed.  Tables and arrays
remember how they came to be, because that decides what later lines may add to them.
-/

namespace Upkeep.Toml

/-- How a table came to be. -/
inductive TableKind
  /-- It was written between braces, and nothing can be added to it. -/
  | closed
  /-- It was made by a dotted key. -/
  | dotted
  /-- It was made on the way to a table below it. -/
  | implied
  /-- It has a header of its own. -/
  | headed
  deriving Repr, DecidableEq

/-- A value of a document. -/
inductive Value
  /-- A text. -/
  | text (s : String)
  /-- A whole number. -/
  | integer (n : Int)
  /-- A number with a point or an exponent. -/
  | float (x : Binary64)
  /-- A truth value. -/
  | boolean (b : Bool)
  /-- A date, a time of day, or both. -/
  | moment (written : String)
  /-- An array; an open one is made of tables with headers of their own. -/
  | array (isOpen : Bool) (elements : List Value)
  /-- A table. -/
  | table (kind : TableKind) (rows : List (String × Value))
  deriving Repr, Inhabited

/-- The rows of a table, in order. -/
abbrev Rows := List (String × Value)

namespace Rows

/-- The value of a key. -/
def find? (rows : Rows) (key : String) : Option Value := rows.lookup key

/-- Replaces the value of a key. -/
def replace (rows : Rows) (key : String) (v : Value) : Rows :=
  rows.map fun row => if row.1 = key then (key, v) else row

/-- The rows without a key. -/
def drop (rows : Rows) (key : String) : Rows := rows.filter fun row => row.1 ≠ key

/-- Adds a key at the end. -/
def add (rows : Rows) (key : String) (v : Value) : Rows := rows ++ [(key, v)]

end Rows

end Upkeep.Toml
