import FilterLang.Text.Numeral

/-!
# JSON text

The parts of a JSON document that expressions need: strings, arrays and
objects, written without any blanks or with every item on a line of its own,
indented by two spaces a level.
-/

namespace FilterLang
namespace Json

/-- How the items of arrays and objects are set. -/
inductive Style
  /-- No blanks at all. -/
  | compact
  /-- Every item on a line of its own. -/
  | indented
  deriving DecidableEq

/-- How a character stands in a JSON string. -/
def escape (character : Char) : List Char :=
  match character with
  | '"' => ['\\', '"']
  | '\\' => ['\\', '\\']
  | '\x08' => ['\\', 'b']
  | '\x0c' => ['\\', 'f']
  | '\n' => ['\\', 'n']
  | '\r' => ['\\', 'r']
  | '\t' => ['\\', 't']
  | _ =>
      if character.toNat < 0x10 then
        ['\\', 'u', '0', '0', '0'] ++ Numeral.hexDigits character.toNat
      else if character.toNat < 0x20 then
        ['\\', 'u', '0', '0'] ++ Numeral.hexDigits character.toNat
      else
        [character]

/-- A JSON string. -/
def string (text : List Char) : List Char :=
  '"' :: text.flatMap escape ++ ['"']

/-- The start of a new line at a level. -/
def newLine (level : Nat) : Style → List Char
  | .compact => []
  | .indented => '\n' :: List.replicate (2 * level) ' '

/-- The items of an array or object, separated by commas. -/
def separated
    (style : Style)
    (level : Nat) : List (List Char) → List Char
  | [] => []
  | [item] => newLine level style ++ item
  | item :: items =>
      newLine level style ++ item ++ ',' :: separated style level items

/-- Items between two brackets; no items leave no blanks. -/
def enclosed
    (style : Style)
    (level : Nat)
    (opening closing : Char)
    (items : List (List Char)) : List Char :=
  if items.isEmpty then
    [opening, closing]
  else
    opening :: separated style (level + 1) items ++
      newLine level style ++ [closing]

/-- An array at a level, whose items are written for the next level. -/
def array
    (style : Style)
    (level : Nat)
    (items : List (List Char)) : List Char :=
  enclosed style level '[' ']' items

/-- A member of an object: its key, and its value as written already. -/
def member
    (style : Style)
    (key : String)
    (value : List Char) : List Char :=
  let colon := match style with
    | .compact => [':']
    | .indented => [':', ' ']
  string key.toList ++ colon ++ value

/-- An object at a level, whose members are written for the next level. -/
def object
    (style : Style)
    (level : Nat)
    (members : List (List Char)) : List Char :=
  enclosed style level '{' '}' members

end Json
end FilterLang
