import FilterLang.Token

/-!
# Filter expressions

An expression is a tree: its leaves are field names and literal values, its
inner nodes are operators. Depth counts the operators on the longest path from
the root to a leaf.
-/

namespace FilterLang

/-- A filter expression. -/
inductive Expr
  | identifier (name : String)
  | literal (value : String)
  | not (child : Expr)
  | binary (op : BinaryOp) (left right : Expr)
  deriving DecidableEq

namespace Expr

/-- Number of operators on the longest path from the root to a leaf. -/
def depth : Expr → Nat
  | identifier _ => 0
  | literal _ => 0
  | not child => child.depth + 1
  | binary _ left right => max left.depth right.depth + 1

@[simp] theorem depth_identifier (name : String) :
    (identifier name).depth = 0 := rfl

@[simp] theorem depth_literal (value : String) :
    (literal value).depth = 0 := rfl

@[simp] theorem depth_not (child : Expr) :
    (not child).depth = child.depth + 1 := rfl

@[simp] theorem depth_binary (op : BinaryOp) (left right : Expr) :
    (binary op left right).depth = max left.depth right.depth + 1 := rfl

/-- The kind of the token at the root. -/
def kind : Expr → TokenKind
  | identifier _ => .identifier
  | literal _ => .literal
  | not _ => .not
  | binary op _ _ => .operator (.binary op)

/-- The text that a leaf carries. -/
def value? : Expr → Option String
  | identifier name => some name
  | literal value => some value
  | not _ => none
  | binary _ _ _ => none

/-- The operands of the root, left to right. -/
def children : Expr → List Expr
  | identifier _ => []
  | literal _ => []
  | not child => [child]
  | binary _ left right => [left, right]

/-- Whether an expression is a single name or value. -/
def isLeaf (tree : Expr) : Bool :=
  tree.value?.isSome

/-- The leaves, left to right. -/
def leaves : Expr → List Expr
  | identifier name => [identifier name]
  | literal value => [literal value]
  | not child => child.leaves
  | binary _ left right => left.leaves ++ right.leaves

theorem leaves_of_isLeaf
    {tree : Expr}
    (isLeaf : tree.isLeaf) :
    tree.leaves = [tree] := by
  cases tree with
  | identifier => rfl
  | literal => rfl
  | not => exact absurd isLeaf Bool.false_ne_true
  | binary => exact absurd isLeaf Bool.false_ne_true

/-- Every subexpression, each before its operands. -/
def preorder : Expr → List Expr
  | identifier name => [identifier name]
  | literal value => [literal value]
  | not child => not child :: child.preorder
  | binary op left right =>
      binary op left right :: (left.preorder ++ right.preorder)

end Expr
end FilterLang
