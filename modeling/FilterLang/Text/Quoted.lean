import FilterLang.Text.GraphemeExtend
import FilterLang.Text.Numeral
import FilterLang.Text.Unprintable

/-!
# Quoted text

A text is quoted between double quotes. Double quote, backslash, NUL, tab, line
feed and carriage return have escapes of two characters; a character that is
hidden, because nothing of it would show or it would join the character before
it, is written by its code point. All else stands for itself, so a quoted text
never spans lines.

Which characters are hidden is a parameter: quoted text can be read back
whatever they are. `quote` uses the standard choice `isHidden`.
-/

namespace FilterLang
namespace Quoted

/-- A character is hidden when it is unprintable or extends a grapheme. -/
def isHidden (character : Char) : Bool :=
  CodePointSet.unprintable.contains character ||
    CodePointSet.graphemeExtend.contains character

/-- A character named by its code point. -/
def byCodePoint (character : Char) : List Char :=
  ['\\', 'u', '{'] ++ Numeral.hexDigits character.toNat ++ ['}']

/-- How a character stands in a quoted text. -/
def escape
    (hidden : Char → Bool)
    (character : Char) : List Char :=
  match character with
  | '"' => ['\\', '"']
  | '\\' => ['\\', '\\']
  | '\x00' => ['\\', '0']
  | '\t' => ['\\', 't']
  | '\n' => ['\\', 'n']
  | '\r' => ['\\', 'r']
  | _ => if hidden character then byCodePoint character else [character]

/-- A text with its quotes and escapes. -/
def encode
    (hidden : Char → Bool)
    (text : List Char) : List Char :=
  '"' :: text.flatMap (escape hidden) ++ ['"']

/-- A text quoted with the standard choice of hidden characters. -/
def quote (text : String) : String :=
  String.ofList (encode isHidden text.toList)

end Quoted
end FilterLang
