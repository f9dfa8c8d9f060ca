import Upkeep.Text.Invisible

/-!
# Quoted text

A text is quoted by writing it between double quotes with every character that could be
misread escaped: the quote and the backslash by a backslash, the common controls by their
letters, and every other invisible character by its number in hexadecimal.
-/

namespace Upkeep.Text

/-- How one character is written inside a quoted text. -/
def escapeChar (c : Char) : List Char :=
  if c = '"' then ['\\', '"']
  else if c = '\\' then ['\\', '\\']
  else if c = '\n' then ['\\', 'n']
  else if c = '\t' then ['\\', 't']
  else if c = '\r' then ['\\', 'r']
  else if c = '\x00' then ['\\', '0']
  else if isInvisible c then ['\\', 'u', '\x7b'] ++ Nat.toDigits 16 c.toNat ++ ['\x7d']
  else [c]

/-- The characters of a text, each escaped. -/
def escape (s : String) : String := String.ofList (s.toList.flatMap escapeChar)

/-- A text between double quotes. -/
def quote (s : String) : String := "\"" ++ escape s ++ "\""

/-- A list of texts, each quoted, between square brackets. -/
def quoteList (texts : List String) : String :=
  "[" ++ String.intercalate ", " (texts.map quote) ++ "]"

end Upkeep.Text
