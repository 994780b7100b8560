/-!
# Operators of filter expressions

A filter expression compares field names with values and joins the comparisons
by `AND`, `OR` and `NOT`. Every operator has an upper-case name, which is how
tokens and canonical trees write it; `BinaryOp.ofName?` reads exactly these
names back.
-/

namespace FilterLang

/-- The seven ways to compare a field with a value. -/
inductive Comparison
  | equal
  | set
  | notEqual
  | lessThan
  | lessEqual
  | greaterThan
  | greaterEqual
  deriving DecidableEq

namespace Comparison

/-- The upper-case name of a comparison. -/
def name : Comparison → String
  | equal => "EQ"
  | set => "SET"
  | notEqual => "NE"
  | lessThan => "LT"
  | lessEqual => "LTE"
  | greaterThan => "GT"
  | greaterEqual => "GTE"

/-- The characters that write a comparison in an expression. -/
def symbol : Comparison → String
  | equal => "="
  | set => ":"
  | notEqual => "!="
  | lessThan => "<"
  | lessEqual => "<="
  | greaterThan => ">"
  | greaterEqual => ">="

/-- The order in which the kinds of comparison are resolved, one kind after
another. -/
def resolutionOrder : List Comparison :=
  [equal, set, notEqual, greaterThan, greaterEqual, lessThan, lessEqual]

theorem mem_resolutionOrder (comparison : Comparison) :
    comparison ∈ resolutionOrder := by
  cases comparison <;> decide

end Comparison

/-- An operator with a left and a right operand. -/
inductive BinaryOp
  | comparison (comparison : Comparison)
  | and
  | or
  deriving DecidableEq

namespace BinaryOp

/-- The upper-case name of a binary operator. -/
def name : BinaryOp → String
  | comparison kind => kind.name
  | and => "AND"
  | or => "OR"

/-- Comparisons take bare operands; `AND` and `OR` take any expression. -/
def isComparison : BinaryOp → Bool
  | comparison _ => true
  | and => false
  | or => false

/-- Every binary operator, comparisons first. -/
def all : List BinaryOp :=
  Comparison.resolutionOrder.map comparison ++ [and, or]

theorem mem_all (op : BinaryOp) : op ∈ all := by
  cases op with
  | comparison kind =>
      exact List.mem_append_left _
        (List.mem_map_of_mem (Comparison.mem_resolutionOrder kind))
  | and => decide
  | or => decide

/-- The binary operator of a given name. -/
def ofName? (name : String) : Option BinaryOp :=
  all.find? fun op => op.name = name

theorem ofName?_name (op : BinaryOp) : ofName? op.name = some op := by
  cases op with
  | comparison kind => cases kind <;> decide
  | and => decide
  | or => decide

theorem ofName?_eq_some_iff
    {name : String}
    {op : BinaryOp} :
    ofName? name = some op ↔ op.name = name := by
  constructor
  · intro found
    simpa using List.find?_some found
  · rintro rfl
    exact ofName?_name op

end BinaryOp

/-- An operator: negation, or one with two operands. -/
inductive Operator
  | not
  | binary (op : BinaryOp)
  deriving DecidableEq

namespace Operator

/-- The upper-case name of an operator. -/
def name : Operator → String
  | not => "NOT"
  | binary op => op.name

/-- Whether an operator is a comparison. -/
def isComparison : Operator → Bool
  | not => false
  | binary op => op.isComparison

end Operator
end FilterLang
