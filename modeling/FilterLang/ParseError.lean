import FilterLang.Token.Listing

/-!
# Parse errors

The reasons why a list of tokens is not an expression. An error inside a group
is wrapped once for every group around it; only the depth limit is reported
bare, however deep the place where it was met.
-/

namespace FilterLang

/-- The side of an operator on which an operand stands. -/
inductive Side
  | left
  | right
  deriving DecidableEq

/-- The name of a side. -/
def Side.name : Side → String
  | left => "left"
  | right => "right"

/-- Why a list of tokens is not an expression. -/
inductive ParseError
  /-- An opening parenthesis is the last token. -/
  | danglingOpen (position : Nat)
  /-- An opening parenthesis is never closed. -/
  | unmatchedOpen (position : Nat)
  /-- Nothing stands between two matching parentheses. -/
  | emptyGroup (position : Nat)
  /-- Nothing stands on one side of an operator. -/
  | missingOperand (operator : Operator) (side : Side)
  /-- A token that is no operand stands on one side of an operator. -/
  | unreducedOperand (operator : Operator) (side : Side) (found : Token)
  /-- A comparison has an operand other than a bare name or value. -/
  | invalidOperand (operator : Operator) (side : Side)
  /-- Groups or operators are nested deeper than the limit. -/
  | tooDeep (limit : Nat)
  /-- An error in the contents of a group. -/
  | inGroup (inner : ParseError)
  /-- What is left in the end is not exactly one expression. -/
  | notSingle
  deriving DecidableEq

namespace ParseError

/-- The text of a parse error. -/
def message : ParseError → String
  | danglingOpen position =>
      "condition ends with an opening parenthesis at position " ++
        position.repr
  | unmatchedOpen position =>
      "missing matching closing parenthesis for '(' at position " ++
        position.repr
  | emptyGroup position =>
      "empty subexpression found at position " ++ position.repr
  | missingOperand operator side =>
      "missing " ++ side.name ++ " parameter for " ++ operator.name ++
        " operator"
  | unreducedOperand operator side found =>
      side.name ++ " parameter for " ++ operator.name ++
        " operator is not a node, got: " ++ found.display
  | invalidOperand operator side =>
      side.name ++ " parameter for " ++ operator.name ++
        " operator must be an identifier or a literal"
  | tooDeep limit =>
      "expression nested deeper than " ++ limit.repr ++ " levels"
  | inGroup inner => "could not parse subexpression: " ++ inner.message
  | notSingle => "parse tree must have exactly one start node"

/-- The errors inside an error, outermost first. -/
def causes : ParseError → List ParseError
  | inGroup inner => inner :: inner.causes
  | _ => []

/-- The number of groups around the place of an error, as far as it tells. -/
def levels : ParseError → Nat
  | inGroup inner => inner.levels + 1
  | _ => 0

/-- An error without the groups around it. -/
def innermost : ParseError → ParseError
  | inGroup inner => inner.innermost
  | error => error

/-- How an error in the contents of a group is reported outside the group. -/
def outsideGroup : ParseError → ParseError
  | tooDeep limit => tooDeep limit
  | error => inGroup error

theorem outsideGroup_of_ne_tooDeep
    {error : ParseError}
    (notTooDeep : ∀ limit, error ≠ tooDeep limit) :
    error.outsideGroup = inGroup error := by
  cases error with
  | tooDeep limit => exact absurd rfl (notTooDeep limit)
  | _ => rfl

end ParseError
end FilterLang
