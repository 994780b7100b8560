import FilterLang.Expr.Basic

/-!
# Building expressions on a stack

Expressions can be built from the leaves up on a stack: operands are pushed,
operators take them off and push what they make of them. A step that fails
leaves the stack as it was.
-/

namespace FilterLang
namespace Expr

/-- Expressions, the top of the stack first. -/
abbrev Stack :=
  List Expr

namespace Stack

/-- Why a step cannot be taken. -/
inductive Fault
  /-- The stack has fewer expressions than the step needs. -/
  | underflow
  /-- No binary operator has the given name. -/
  | unknownOperator
  /-- The top of the stack has no operand at the given place. -/
  | noSuchChild
  deriving DecidableEq

/-- A step that changes the stack. -/
inductive Step
  /-- Push an expression. -/
  | push (tree : Expr)
  /-- Negate the top a number of times; none at all needs no top. -/
  | negate (times : Nat)
  /-- Join the two on top, the upper one on the right, by a named operator. -/
  | join (name : String)
  /-- Push the top again. -/
  | duplicate
  /-- Take the top off. -/
  | discard
  /-- Exchange the two on top. -/
  | exchange
  /-- Push an operand of the top, counted from zero. -/
  | child (index : Nat)

/-- An expression negated a number of times. -/
def negated (tree : Expr) : Nat → Expr
  | 0 => tree
  | times + 1 => .not (negated tree times)

/-- Take one step. An unknown operator is reported whatever is on the stack. -/
def step (stack : Stack) : Step → Except Fault Stack
  | .push tree => .ok (tree :: stack)
  | .negate times =>
      match times, stack with
      | 0, _ => .ok stack
      | times, top :: rest => .ok (negated top times :: rest)
      | _, [] => .error .underflow
  | .join name =>
      match BinaryOp.ofName? name, stack with
      | none, _ => .error .unknownOperator
      | some op, right :: left :: rest => .ok (.binary op left right :: rest)
      | some _, _ => .error .underflow
  | .duplicate =>
      match stack with
      | top :: rest => .ok (top :: top :: rest)
      | [] => .error .underflow
  | .discard =>
      match stack with
      | _ :: rest => .ok rest
      | [] => .error .underflow
  | .exchange =>
      match stack with
      | first :: second :: rest => .ok (second :: first :: rest)
      | _ => .error .underflow
  | .child index =>
      match stack with
      | [] => .error .underflow
      | top :: rest =>
          match top.children[index]? with
          | some operand => .ok (operand :: top :: rest)
          | none => .error .noSuchChild

/-- The expression on top. -/
def top (stack : Stack) : Except Fault Expr :=
  match stack with
  | found :: _ => .ok found
  | [] => .error .underflow

/-- Whether the two expressions on top are equal. -/
def topsEqual (stack : Stack) : Except Fault Bool :=
  match stack with
  | first :: second :: _ => .ok (first = second)
  | _ => .error .underflow

end Stack
end Expr
end FilterLang
