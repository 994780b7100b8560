import FilterLang.Expr.Basic
import FilterLang.Json.Text

/-!
# Expressions as JSON

A leaf is an object with its kind and its value; an operator is an object with
its operands and its kind. The keys of an object are in alphabetical order.
-/

namespace FilterLang
namespace Expr

/-- The object of a leaf. -/
def leafObject
    (style : Json.Style)
    (level : Nat)
    (kind : TokenKind)
    (value : String) : List Char :=
  Json.object style level
    [Json.member style "kind" (Json.string kind.name.toList),
      Json.member style "value" (Json.string value.toList)]

/-- The object of an operator, whose operands are written already. -/
def operatorObject
    (style : Json.Style)
    (level : Nat)
    (kind : TokenKind)
    (operands : List (List Char)) : List Char :=
  Json.object style level
    [Json.member style "children" (Json.array style (level + 1) operands),
      Json.member style "kind" (Json.string kind.name.toList)]

/-- The JSON document of an expression that stands at a level. -/
def jsonAt
    (style : Json.Style)
    (level : Nat) : Expr → List Char
  | identifier name => leafObject style level .identifier name
  | literal value => leafObject style level .literal value
  | not child =>
      operatorObject style level .not [child.jsonAt style (level + 2)]
  | binary op left right =>
      operatorObject style level (.operator (.binary op))
        [left.jsonAt style (level + 2), right.jsonAt style (level + 2)]

/-- The JSON document of an expression. -/
def json
    (style : Json.Style)
    (tree : Expr) : String :=
  String.ofList (tree.jsonAt style 0)

end Expr
end FilterLang
