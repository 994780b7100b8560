import FilterLang.Expr.Basic
import FilterLang.ParseError

/-!
# Rows of slots

Parsing works on a row of slots. At first every slot holds a token; step by
step, tokens give way to subexpressions, which carry their depth. A group, the
subexpression made from a pair of parentheses, is told apart because a
comparison takes only bare operands. The number of tokens left in a row bounds
the work that is still to be done.
-/

namespace FilterLang

/-- A subexpression with its depth. -/
structure Subtree where
  /-- The subexpression. -/
  tree : Expr
  /-- Its depth. -/
  depth : Nat
  deriving DecidableEq

/-- An element of a row. -/
inductive Slot
  /-- A token that has not been used yet. -/
  | token (token : Token)
  /-- A subexpression without parentheses around it. -/
  | node (subtree : Subtree)
  /-- A subexpression made from a group. -/
  | group (subtree : Subtree)
  deriving DecidableEq

namespace Slot

/-- The token in a slot. -/
def token? : Slot → Option Token
  | token found => some found
  | node _ => none
  | group _ => none

/-- The opening parenthesis in a slot. -/
def openParen? (slot : Slot) : Option Token :=
  slot.token?.filter fun found => found.kind = .openParen

/-- Whether a slot holds a closing parenthesis. -/
def isCloseParen (slot : Slot) : Bool :=
  slot.token?.any fun found => found.kind = .closeParen

/-- The negation in a slot. -/
def negation? (slot : Slot) : Option Token :=
  slot.token?.filter fun found => found.kind = .not

/-- The binary operator in a slot, if it is one of those asked for. -/
def binaryOp?
    (ops : List BinaryOp) : Slot → Option BinaryOp
  | token ⟨.operator (.binary op), _, _⟩ => if op ∈ ops then some op else none
  | _ => none

/-- A name or a value becomes a leaf; any other slot stays. -/
def toLeaf : Slot → Slot
  | token ⟨.identifier, text, _⟩ => node ⟨.identifier text, 0⟩
  | token ⟨.literal, text, _⟩ => node ⟨.literal text, 0⟩
  | slot => slot

/-- What a slot is worth as an operand. A comparison takes a bare leaf only. -/
def operand
    (operator : Operator)
    (side : Side) : Slot → Except ParseError Subtree
  | token found => .error (.unreducedOperand operator side found)
  | node subtree =>
      if operator.isComparison && !subtree.tree.isLeaf then
        .error (.invalidOperand operator side)
      else
        .ok subtree
  | group subtree =>
      if operator.isComparison then
        .error (.invalidOperand operator side)
      else
        .ok subtree

/-- The number of tokens in a slot. -/
def tokenCount (slot : Slot) : Nat :=
  if slot.token?.isSome then 1 else 0

theorem openParen?_eq_some_iff
    {slot : Slot}
    {opening : Token} :
    slot.openParen? = some opening ↔
      slot = token opening ∧ opening.kind = .openParen := by
  cases slot <;>
    simp +contextual [openParen?, token?, Option.filter_eq_some_iff]

theorem isCloseParen_iff
    {slot : Slot} :
    slot.isCloseParen ↔
      ∃ closing, slot = token closing ∧ closing.kind = .closeParen := by
  cases slot <;> simp [isCloseParen, token?]

theorem negation?_eq_some_iff
    {slot : Slot}
    {found : Token} :
    slot.negation? = some found ↔
      slot = token found ∧ found.kind = .not := by
  cases slot <;> simp +contextual [negation?, token?, Option.filter_eq_some_iff]

theorem binaryOp?_eq_some_iff
    {ops : List BinaryOp}
    {slot : Slot}
    {op : BinaryOp} :
    slot.binaryOp? ops = some op ↔
      op ∈ ops ∧
        ∃ found, slot = token found ∧ found.kind = .operator (.binary op) := by
  cases slot with
  | token found =>
      obtain ⟨kind, text, span⟩ := found
      cases kind with
      | operator operator =>
          cases operator with
          | not => simp [binaryOp?]
          | binary other =>
              simp only [binaryOp?, Option.ite_none_right_eq_some,
                Option.some.injEq, token.injEq, exists_eq_left',
                TokenKind.operator.injEq, Operator.binary.injEq]
              constructor
              · rintro ⟨member, rfl⟩
                exact ⟨member, rfl⟩
              · rintro ⟨member, rfl⟩
                exact ⟨member, rfl⟩
      | identifier => simp [binaryOp?]
      | literal => simp [binaryOp?]
      | openParen => simp [binaryOp?]
      | closeParen => simp [binaryOp?]
  | node subtree => simp [binaryOp?]
  | group subtree => simp [binaryOp?]

/-- A slot is an operand when it holds a subexpression, which for a comparison
must be a bare leaf. -/
theorem operand_eq_ok_iff
    {operator : Operator}
    {side : Side}
    {slot : Slot}
    {subtree : Subtree} :
    slot.operand operator side = .ok subtree ↔
      (slot = node subtree ∧
          (operator.isComparison → subtree.tree.isLeaf)) ∨
        (slot = group subtree ∧ operator.isComparison = false) := by
  cases slot with
  | token found => simp [operand]
  | node built =>
      by_cases invalid : operator.isComparison ∧ built.tree.isLeaf = false
      · simp only [operand, invalid.1, invalid.2, Bool.not_false,
          Bool.and_self, if_true, reduceCtorEq, node.injEq, false_and,
          or_false, false_iff]
        rintro ⟨rfl, leafTree⟩
        simp [invalid.2] at leafTree
      · simp only [operand, Bool.and_eq_true, Bool.not_eq_true', if_neg invalid,
          Except.ok.injEq, node.injEq, reduceCtorEq, false_and, or_false]
        constructor
        · rintro rfl
          exact ⟨rfl, fun isComparison => by
            simpa [isComparison] using invalid⟩
        · rintro ⟨rfl, _⟩
          rfl
  | group built =>
      cases isComparison : operator.isComparison with
      | false => simp [operand, isComparison]
      | true => simp [operand, isComparison]

@[simp] theorem tokenCount_token (found : Token) :
    (token found).tokenCount = 1 := rfl

@[simp] theorem tokenCount_node (subtree : Subtree) :
    (node subtree).tokenCount = 0 := rfl

@[simp] theorem tokenCount_group (subtree : Subtree) :
    (group subtree).tokenCount = 0 := rfl

/-- What is taken as an operand is no token. -/
theorem token?_of_operand
    {operator : Operator}
    {side : Side}
    {slot : Slot}
    {subtree : Subtree}
    (taken : slot.operand operator side = .ok subtree) :
    slot.token? = none := by
  rcases operand_eq_ok_iff.mp taken with ⟨rfl, -⟩ | ⟨rfl, -⟩
  · rfl
  · rfl

theorem tokenCount_of_operand
    {operator : Operator}
    {side : Side}
    {slot : Slot}
    {subtree : Subtree}
    (taken : slot.operand operator side = .ok subtree) :
    slot.tokenCount = 0 := by
  rw [tokenCount, token?_of_operand taken]
  rfl

/-- An operand is no operator. -/
theorem binaryOp?_of_operand
    {ops : List BinaryOp}
    {operator : Operator}
    {side : Side}
    {slot : Slot}
    {subtree : Subtree}
    (taken : slot.operand operator side = .ok subtree) :
    slot.binaryOp? ops = none := by
  rcases operand_eq_ok_iff.mp taken with ⟨rfl, _⟩ | ⟨rfl, _⟩
  · rfl
  · rfl

theorem negation?_of_operand
    {operator : Operator}
    {side : Side}
    {slot : Slot}
    {subtree : Subtree}
    (taken : slot.operand operator side = .ok subtree) :
    slot.negation? = none := by
  rcases operand_eq_ok_iff.mp taken with ⟨rfl, _⟩ | ⟨rfl, _⟩
  · rfl
  · rfl

end Slot

/-- A row of slots, left to right. -/
abbrev Row :=
  List Slot

namespace Row

/-- The row that holds a list of tokens. -/
def ofTokens (tokens : List Token) : Row :=
  tokens.map .token

/-- The number of tokens left in a row. -/
def tokenCount : Row → Nat
  | [] => 0
  | slot :: row => slot.tokenCount + tokenCount row

@[simp] theorem tokenCount_nil : tokenCount [] = 0 := rfl

@[simp] theorem tokenCount_cons (slot : Slot) (row : Row) :
    tokenCount (slot :: row) = slot.tokenCount + row.tokenCount := rfl

@[simp] theorem tokenCount_append (front back : Row) :
    tokenCount (front ++ back) = front.tokenCount + back.tokenCount := by
  induction front with
  | nil => simp
  | cons slot front hypothesis =>
      rw [List.cons_append, tokenCount_cons, tokenCount_cons, hypothesis,
        Nat.add_assoc]

@[simp] theorem tokenCount_reverse (row : Row) :
    tokenCount row.reverse = row.tokenCount := by
  induction row with
  | nil => rfl
  | cons slot row hypothesis =>
      simp [hypothesis, Nat.add_comm]

/-- The subexpression that a row comes down to. -/
def single : Row → Except ParseError Subtree
  | [.node subtree] => .ok subtree
  | [.group subtree] => .ok subtree
  | _ => .error .notSingle

/-- A row comes down to its only slot, which may be any operand of a
negation. -/
theorem single_eq_ok_iff
    {row : Row}
    {subtree : Subtree} :
    row.single = .ok subtree ↔
      ∃ slot, row = [slot] ∧ slot.operand .not .right = .ok subtree := by
  unfold single
  split
  · simp [Slot.operand_eq_ok_iff, Operator.isComparison]
  · simp [Slot.operand_eq_ok_iff, Operator.isComparison]
  · rename_i noNode noGroup
    simp only [reduceCtorEq, false_iff]
    rintro ⟨slot, rfl, taken⟩
    rcases Slot.operand_eq_ok_iff.mp taken with ⟨rfl, -⟩ | ⟨rfl, -⟩
    · exact noNode subtree rfl
    · exact noGroup subtree rfl

end Row
end FilterLang
