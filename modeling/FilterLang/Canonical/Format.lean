import FilterLang.Expr.Basic

/-!
# The canonical format

```text
tree := ID{text} | VAL{text} | NOT{tree} | OP{tree,tree}
text := a double quote, items, a double quote
item := any character but the double quote and the backslash
      | \n | \t | \r | \0 | \" | \' | \\ | \u{digits} | \u{+digits}
```

`OP` is the name of a binary operator. Digits are hexadecimal, in either case,
at least one, with any number of leading zeros, and name a character by its
code point. There are no blanks between the parts.
-/

namespace FilterLang
namespace Canonical

/-- The hexadecimal digits with capital letters and with small ones. -/
def digitAlphabets : List (List Char) :=
  ["0123456789ABCDEF".toList, "0123456789abcdef".toList]

/-- A character is the digit of a value in one of the alphabets. -/
def IsDigit
    (digit : Char)
    (value : Nat) : Prop :=
  ∃ alphabet ∈ digitAlphabets, alphabet[value]? = some digit

/-- Digits write a number in base sixteen. -/
inductive WritesNumber : List Char → Nat → Prop
  | single
      {digit : Char}
      {value : Nat}
      (isDigit : IsDigit digit value) :
      WritesNumber [digit] value
  | append
      {digits : List Char}
      {digit : Char}
      {number value : Nat}
      (written : WritesNumber digits number)
      (isDigit : IsDigit digit value) :
      WritesNumber (digits ++ [digit]) (16 * number + value)

/-- The letters that name a character behind a backslash. -/
def escapeLetters : List (Char × Char) :=
  [('n', '\n'), ('t', '\t'), ('r', '\r'), ('0', '\x00'), ('"', '"'),
    ('\'', '\''), ('\\', '\\')]

/-- Characters write one character of a quoted text. -/
inductive WritesItem : List Char → Char → Prop
  | plain
      {character : Char}
      (notQuote : character ≠ '"')
      (notBackslash : character ≠ '\\') :
      WritesItem [character] character
  | escape
      {letter character : Char}
      (named : (letter, character) ∈ escapeLetters) :
      WritesItem ['\\', letter] character
  | codePoint
      {digits : List Char}
      {character : Char}
      (written : WritesNumber digits character.toNat) :
      WritesItem (['\\', 'u', '{'] ++ digits ++ ['}']) character
  | signedCodePoint
      {digits : List Char}
      {character : Char}
      (written : WritesNumber digits character.toNat) :
      WritesItem (['\\', 'u', '{', '+'] ++ digits ++ ['}']) character

/-- Characters write the characters of a quoted text one after another. -/
inductive WritesItems : List Char → List Char → Prop
  | nil : WritesItems [] []
  | cons
      {item items text : List Char}
      {character : Char}
      (first : WritesItem item character)
      (later : WritesItems items text) :
      WritesItems (item ++ items) (character :: text)

/-- Characters write a quoted text. -/
inductive WritesText : List Char → String → Prop
  | quoted
      {items : List Char}
      {text : String}
      (written : WritesItems items text.toList) :
      WritesText ('"' :: items ++ ['"']) text

/-- Characters write an expression in canonical format. -/
inductive WritesTree : List Char → Expr → Prop
  | identifier
      {written : List Char}
      {name : String}
      (nameWritten : WritesText written name) :
      WritesTree ("ID".toList ++ '{' :: written ++ ['}']) (.identifier name)
  | literal
      {written : List Char}
      {value : String}
      (valueWritten : WritesText written value) :
      WritesTree ("VAL".toList ++ '{' :: written ++ ['}']) (.literal value)
  | not
      {written : List Char}
      {child : Expr}
      (childWritten : WritesTree written child) :
      WritesTree ("NOT".toList ++ '{' :: written ++ ['}']) (.not child)
  | binary
      {op : BinaryOp}
      {front back : List Char}
      {left right : Expr}
      (leftWritten : WritesTree front left)
      (rightWritten : WritesTree back right) :
      WritesTree
        (op.name.toList ++ '{' :: (front ++ ',' :: back) ++ ['}'])
        (.binary op left right)

end Canonical
end FilterLang
