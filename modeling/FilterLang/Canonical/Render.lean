import FilterLang.Expr.Basic
import FilterLang.Text.Quoted

/-!
# The canonical form of an expression

The canonical form writes an expression on one line: the kind of the root, then
the operands, or the quoted text of a leaf, between braces.

```text
OR{AND{EQ{ID{"X"},VAL{"5"}},EQ{ID{"Y"},VAL{"6"}}},ID{"Z"}}
```
-/

namespace FilterLang
namespace Expr

/-- A kind with something between braces behind it. -/
def braced
    (kind : TokenKind)
    (inside : List Char) : List Char :=
  kind.name.toList ++ '{' :: inside ++ ['}']

/-- The canonical form, with a given choice of hidden characters. -/
def canonical (hidden : Char → Bool) : Expr → List Char
  | identifier name => braced .identifier (Quoted.encode hidden name.toList)
  | literal value => braced .literal (Quoted.encode hidden value.toList)
  | not child => braced .not (child.canonical hidden)
  | binary op left right =>
      braced (.operator (.binary op))
        (left.canonical hidden ++ ',' :: right.canonical hidden)

/-- The canonical form with the standard choice of hidden characters. -/
def render (tree : Expr) : String :=
  String.ofList (tree.canonical Quoted.isHidden)

end Expr
end FilterLang
