import FilterLang.Expr.Basic

/-!
# The grammar of filter expressions

```text
or         := and ( OR and )*
and        := not ( AND not )*
not        := NOT not | comparison
comparison := operand COMPARISON operand | "(" or ")" | operand
operand    := identifier | literal
```

A derivation names the expression that its tokens stand for and the greatest
number of parentheses that are open at once. `AND` and `OR` associate to the
left. Both operands of a comparison are bare.
-/

namespace FilterLang

/-- The levels of the grammar, the tightest first. -/
inductive Level
  | comparison
  | not
  | and
  | or
  deriving DecidableEq

/-- The leaf that a token stands for by itself. -/
def Token.leaf? (token : Token) : Option Expr :=
  match token.kind with
  | .identifier => some (.identifier token.text)
  | .literal => some (.literal token.text)
  | _ => none

theorem isLeaf_of_leaf?
    {token : Token}
    {leaf : Expr}
    (stands : token.leaf? = some leaf) :
    leaf.isLeaf := by
  unfold Token.leaf? at stands
  split at stands
  · simp only [Option.some.injEq] at stands
    subst stands
    rfl
  · simp only [Option.some.injEq] at stands
    subst stands
    rfl
  · simp at stands

theorem leaf?_of_operator
    {token : Token}
    {operator : Operator}
    (isOperator : token.kind = .operator operator) :
    token.leaf? = none := by
  rw [Token.leaf?, isOperator]

/-- A list of tokens stands for an expression at a level of the grammar, with
at most so many parentheses open at once, and somewhere exactly so many. -/
inductive Derives : Level → List Token → Expr → Nat → Prop
  | operand
      {token : Token}
      {leaf : Expr}
      (isLeaf : token.leaf? = some leaf) :
      Derives .comparison [token] leaf 0
  | comparison
      {kind : Comparison}
      {first operator second : Token}
      {left right : Expr}
      (leftLeaf : first.leaf? = some left)
      (isOperator : operator.kind = .comparison kind)
      (rightLeaf : second.leaf? = some right) :
      Derives .comparison [first, operator, second]
        (.binary (.comparison kind) left right) 0
  | group
      {opening closing : Token}
      {contents : List Token}
      {tree : Expr}
      {nesting : Nat}
      (isOpening : opening.kind = .openParen)
      (derived : Derives .or contents tree nesting)
      (isClosing : closing.kind = .closeParen) :
      Derives .comparison (opening :: contents ++ [closing]) tree (nesting + 1)
  | notOfComparison
      {tokens : List Token}
      {tree : Expr}
      {nesting : Nat}
      (derived : Derives .comparison tokens tree nesting) :
      Derives .not tokens tree nesting
  | not
      {operator : Token}
      {tokens : List Token}
      {child : Expr}
      {nesting : Nat}
      (isOperator : operator.kind = .not)
      (derived : Derives .not tokens child nesting) :
      Derives .not (operator :: tokens) (.not child) nesting
  | andOfNot
      {tokens : List Token}
      {tree : Expr}
      {nesting : Nat}
      (derived : Derives .not tokens tree nesting) :
      Derives .and tokens tree nesting
  | and
      {operator : Token}
      {front back : List Token}
      {left right : Expr}
      {frontNesting backNesting : Nat}
      (leftDerived : Derives .and front left frontNesting)
      (isOperator : operator.kind = .and)
      (rightDerived : Derives .not back right backNesting) :
      Derives .and (front ++ operator :: back) (.binary .and left right)
        (max frontNesting backNesting)
  | orOfAnd
      {tokens : List Token}
      {tree : Expr}
      {nesting : Nat}
      (derived : Derives .and tokens tree nesting) :
      Derives .or tokens tree nesting
  | or
      {operator : Token}
      {front back : List Token}
      {left right : Expr}
      {frontNesting backNesting : Nat}
      (leftDerived : Derives .or front left frontNesting)
      (isOperator : operator.kind = .or)
      (rightDerived : Derives .and back right backNesting) :
      Derives .or (front ++ operator :: back) (.binary .or left right)
        (max frontNesting backNesting)

end FilterLang
