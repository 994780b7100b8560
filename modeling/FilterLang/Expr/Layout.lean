import FilterLang.Expr.Basic
import FilterLang.Text.Quoted

/-!
# Expressions over several lines

The laid-out form is the canonical form with a line for every operand and every
closing brace. A line is indented by a fixed width for each brace that is open
before it, and a comma follows every operand, the last one included.
-/

namespace FilterLang
namespace Expr

/-- The spaces in front of a line inside `level` braces. -/
def indentation (width level : Nat) : List Char :=
  List.replicate (level * width) ' '

/-- A kind with lines between braces behind it. -/
def block
    (width level : Nat)
    (kind : TokenKind)
    (lines : List (List Char)) : List Char :=
  let line (inside : List Char) : List Char :=
    indentation width (level + 1) ++ inside ++ [',', '\n']
  kind.name.toList ++ [' ', '{', '\n'] ++ lines.flatMap line ++
    indentation width level ++ ['}']

/-- The laid-out form of an expression that stands inside `level` braces. -/
def laidOut
    (hidden : Char → Bool)
    (width level : Nat) : Expr → List Char
  | identifier name =>
      block width level .identifier [Quoted.encode hidden name.toList]
  | literal value =>
      block width level .literal [Quoted.encode hidden value.toList]
  | not child =>
      block width level .not [child.laidOut hidden width (level + 1)]
  | binary op left right =>
      block width level (.operator (.binary op))
        [left.laidOut hidden width (level + 1),
          right.laidOut hidden width (level + 1)]

/-- The laid-out form with a given width of indentation. -/
def pretty
    (width : Nat)
    (tree : Expr) : String :=
  String.ofList (tree.laidOut Quoted.isHidden width 0)

end Expr

/-- The width of indentation when none is given. -/
def defaultIndentWidth : Nat :=
  2

end FilterLang
