import Upkeep.Console.Filter

/-!
# Lines on the console

A line is written as its level, its text and its fields, each as a name and a value with an
equals sign between them.
-/

namespace Upkeep

/-- A value as the console shows it. -/
def FieldValue.render : FieldValue → String
  | text s => s
  | quoted s => Text.quote s
  | number n => toString n
  | flag b => if b then "true" else "false"

/-- A line as the console shows it. -/
def Line.render (l : Line) : String :=
  " ".intercalate
    (l.level.word :: l.message :: l.fields.map fun (name, value) => name ++ "=" ++ value.render)

/-- The lines that a filter lets through, as the console shows them. -/
def Filter.show (f : Filter) (reports : List Report) : List String :=
  ((reports.map Report.line).filter f.allows).map Line.render

end Upkeep
