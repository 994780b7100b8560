import FilterLang.Expr.Basic
import FilterLang.Lexeme.LexicalClass

/-!
# Source texts of expressions

Not every expression can be written down: a name must have the shape of a name
and not start with a keyword, a value with a double quote in it must be a
pattern between slashes, and the operands of a comparison must be leaves. Such
an expression has a source text with parentheses around the operands of every
`NOT`, `AND` and `OR`.
-/

namespace FilterLang

/-- The three keywords, in capital letters. -/
def keywords : List (List Char) :=
  ["AND".toList, "OR".toList, "NOT".toList]

/-- A text starts with a keyword, in any letter case. -/
def StartsWithKeyword (text : List Char) : Prop :=
  ∃ keyword ∈ keywords,
    (text.take keyword.length).map Char.toUpper = keyword

/-- A text has the shape of a word: a letter with word characters behind it. -/
inductive IsWord : List Char → Prop
  | word
      {first : Char}
      {later : List Char}
      (firstLetter : first.isAlpha)
      (laterCharacters : ∀ character ∈ later,
        LexicalClass.isWordCharacter character) :
      IsWord (first :: later)

/-- A text has the shape of a pattern: anything but a slash between slashes,
with small letters behind it. -/
inductive IsPattern : List Char → Prop
  | pattern
      {body flags : List Char}
      (noSlash : '/' ∉ body)
      (flagLetters : ∀ character ∈ flags, character.isLower) :
      IsPattern ('/' :: body ++ '/' :: flags)

namespace Expr

/-- An expression that a source text can stand for. -/
inductive Expressible : Expr → Prop
  | identifier
      {name : String}
      (isWord : IsWord name.toList)
      (noKeyword : ¬StartsWithKeyword name.toList) :
      Expressible (identifier name)
  | literal
      {value : String}
      (writable : '"' ∉ value.toList ∨ IsPattern value.toList) :
      Expressible (literal value)
  | not
      {child : Expr}
      (childExpressible : Expressible child) :
      Expressible (not child)
  | comparison
      {kind : Comparison}
      {left right : Expr}
      (leftExpressible : Expressible left)
      (rightExpressible : Expressible right)
      (leftLeaf : left.isLeaf)
      (rightLeaf : right.isLeaf) :
      Expressible (binary (.comparison kind) left right)
  | and
      {left right : Expr}
      (leftExpressible : Expressible left)
      (rightExpressible : Expressible right) :
      Expressible (binary .and left right)
  | or
      {left right : Expr}
      (leftExpressible : Expressible left)
      (rightExpressible : Expressible right) :
      Expressible (binary .or left right)

/-- A source text between parentheses. -/
def parenthesized (source : List Char) : List Char :=
  '(' :: source ++ [')']

/-- The source text of a value: between quotes if it has none itself. -/
def literalSource (value : List Char) : List Char :=
  if '"' ∈ value then value else '"' :: value ++ ['"']

/-- The source text of an expression. -/
def source : Expr → List Char
  | identifier name => name.toList
  | literal value => literalSource value.toList
  | not child => "NOT ".toList ++ parenthesized child.source
  | binary (.comparison kind) left right =>
      left.source ++ ' ' :: kind.symbol.toList ++ ' ' :: right.source
  | binary op left right =>
      parenthesized left.source ++ ' ' :: op.name.toList ++
        ' ' :: parenthesized right.source

end Expr
end FilterLang
