import Upkeep.Toml.Value

/-!
# Putting a document together

A line of a document adds a value under a dotted key, or a header opens a table.  Every table
is defined once: a header may complete a table that was only implied, and nothing else; a
dotted key may reach through tables made by dotted keys or implied ones, but not into a table
with a header of its own; and what was written between braces or brackets is closed.
`none` stands for a line that breaks these rules.
-/

namespace Upkeep.Toml

namespace Rows

/-- Replaces the rows of the last table of an open array. -/
def mapLast {β : Type} (f : Rows → Option (β × Rows)) : List Value → Option (β × List Value)
  | [] => none
  | [.table kind rows] => (f rows).map fun (b, rows) => (b, [.table kind rows])
  | [_] => none
  | v :: w :: rest => (mapLast f (w :: rest)).map fun (b, vs) => (b, v :: vs)

/-- Adds a value under a dotted key: the path `path`, then `key`.  The tables on the way are
made if they are missing, and the last of them must be one that a dotted key made. -/
def insertDotted (key : String) (v : Value) : (path : List String) → Rows → Option Rows
  | [], rows => if (rows.find? key).isSome then none else some (rows.add key v)
  | step :: path, rows =>
    match rows.find? step with
    | none => (insertDotted key v path []).map fun sub => rows.add step (.table .dotted sub)
    | some (.table .dotted sub) =>
      (insertDotted key v path sub).map fun sub => rows.replace step (.table .dotted sub)
    | some (.table .implied sub) =>
      if path.isEmpty then none
      else (insertDotted key v path sub).map fun sub => rows.replace step (.table .implied sub)
    | some (.array true elements) =>
      if path.isEmpty then none
      else
        (mapLast (fun sub => (insertDotted key v path sub).map fun sub => ((), sub)) elements).map
          fun (_, elements) => rows.replace step (.array true elements)
    | some _ => none

/-- Changes the table at the end of a header's path.  The tables on the way are implied if
they are missing; of an open array the way goes on in the last table. -/
def changeAt {β : Type} (f : Rows → Option (β × Rows)) :
    (path : List String) → Rows → Option (β × Rows)
  | [], rows => f rows
  | step :: path, rows =>
    match rows.find? step with
    | none => (changeAt f path []).map fun (b, sub) => (b, rows.add step (.table .implied sub))
    | some (.table .closed _) => none
    | some (.table kind sub) =>
      (changeAt f path sub).map fun (b, sub) => (b, rows.replace step (.table kind sub))
    | some (.array true elements) =>
      (mapLast (changeAt f path) elements).map fun (b, elements) =>
        (b, rows.replace step (.array true elements))
    | some _ => none

/-- Takes out the table that a header completes; a missing one is empty. -/
def takeTable (key : String) (rows : Rows) : Option (Rows × Rows) :=
  match rows.find? key with
  | none => some ([], rows)
  | some (.table .implied sub) => some (sub, rows.drop key)
  | some _ => none

/-- Makes sure that there is an open array. -/
def openArray (key : String) (rows : Rows) : Option (Unit × Rows) :=
  match rows.find? key with
  | none => some ((), rows.add key (.array true []))
  | some (.array true _) => some ((), rows)
  | some _ => none

/-- Puts a completed table into its place. -/
def putTable (key : String) (table : Rows) (rows : Rows) : Option (Unit × Rows) :=
  if (rows.find? key).isSome then none else some ((), rows.add key (.table .headed table))

/-- Puts a completed table at the end of an open array. -/
def pushTable (key : String) (table : Rows) (rows : Rows) : Option (Unit × Rows) :=
  match rows.find? key with
  | some (.array true elements) =>
    some ((), rows.replace key (.array true (elements ++ [.table .headed table])))
  | _ => none

end Rows

/-- What a header opened. -/
inductive Section
  /-- Nothing: the lines before the first header. -/
  | top
  /-- A table. -/
  | table (path : List String) (key : String)
  /-- The next table of an array. -/
  | element (path : List String) (key : String)
  deriving Repr, DecidableEq

/-- A document that is being put together: what is complete, and the section at hand. -/
structure Assembly where
  /-- The tables that are complete. -/
  done : Rows := []
  /-- Where the section belongs. -/
  place : Section := .top
  /-- The rows of the section. -/
  rows : Rows := []

namespace Assembly

/-- Puts the section at hand into its place. -/
def complete (a : Assembly) : Option Rows :=
  match a.place with
  | .top => some a.rows
  | .table path key => (Rows.changeAt (Rows.putTable key a.rows) path a.done).map Prod.snd
  | .element path key => (Rows.changeAt (Rows.pushTable key a.rows) path a.done).map Prod.snd

/-- The header of a table. -/
def openTable (path : List String) (key : String) (a : Assembly) : Option Assembly := do
  let done ← a.complete
  let (rows, done) ← Rows.changeAt (Rows.takeTable key) path done
  return ⟨done, .table path key, rows⟩

/-- The header of the next table of an array. -/
def openElement (path : List String) (key : String) (a : Assembly) : Option Assembly := do
  let done ← a.complete
  let (_, done) ← Rows.changeAt (Rows.openArray key) path done
  return ⟨done, .element path key, []⟩

/-- A line with a dotted key and a value. -/
def insert (path : List String) (key : String) (v : Value) (a : Assembly) : Option Assembly :=
  (Rows.insertDotted key v path a.rows).map fun rows => { a with rows := rows }

end Assembly

end Upkeep.Toml
