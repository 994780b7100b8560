import FilterLang.Outcome
import FilterLang.Row.Basic
import FilterLang.Row.Focus

/-!
# Phases of a reduction

A phase reduces operators one at a time until none of its own is left: binary
operators leftmost first, negations rightmost first, so that `NOT NOT x` nests
from the inside out. Each step puts one subexpression in the place of an
operator and its operands, so it leaves fewer tokens than it found.

A schedule is the list of phases in order of precedence. The standard schedule
resolves the comparisons one kind after another.
-/

namespace FilterLang

/-- The operators that are reduced together. -/
inductive Phase
  /-- Binary operators, leftmost first. -/
  | binary (ops : List BinaryOp)
  /-- Negations, rightmost first. -/
  | negation
  deriving DecidableEq

namespace Row

/-- The operand next to an operator, among the slots on that side, nearest
first. -/
def takeOperand
    (operator : Operator)
    (side : Side) : Row → Except ParseError (Subtree × Row)
  | [] => .error (.missingOperand operator side)
  | slot :: row => do
      let subtree ← slot.operand operator side
      return (subtree, row)

/-- The depth of a node whose deepest operand has a given depth. -/
def depthAbove
    (limit depth : Nat) : Except ParseError Nat :=
  if depth < limit then .ok (depth + 1) else .error (.tooDeep limit)

/-- Put one node in the place of a binary operator and its operands. The right
operand is looked at first. -/
def reduceBinary
    (limit : Nat)
    (focus : Focus Slot BinaryOp) : Except ParseError Row := do
  let op := focus.found
  let (right, after) ← takeOperand (.binary op) .right focus.after
  let (left, before) ← takeOperand (.binary op) .left focus.before
  let depth ← depthAbove limit (max left.depth right.depth)
  return Focus.fill before (.node ⟨.binary op left.tree right.tree, depth⟩) after

/-- Put one node in the place of a negation and its operand. -/
def reduceNegation
    (limit : Nat)
    (focus : Focus Slot Token) : Except ParseError Row := do
  let (child, after) ← takeOperand .not .right focus.after
  let depth ← depthAbove limit child.depth
  return Focus.fill focus.before (.node ⟨.not child.tree, depth⟩) after

theorem takeOperand_eq_ok_iff
    {operator : Operator}
    {side : Side}
    {row rest : Row}
    {subtree : Subtree} :
    takeOperand operator side row = .ok (subtree, rest) ↔
      ∃ slot, row = slot :: rest ∧
        slot.operand operator side = .ok subtree := by
  cases row with
  | nil => simp [takeOperand]
  | cons slot row =>
      simp only [takeOperand, bind_eq_ok_iff, pure, Except.pure,
        Except.ok.injEq, Prod.mk.injEq, List.cons.injEq]
      constructor
      · rintro ⟨found, taken, rfl, rfl⟩
        exact ⟨slot, ⟨rfl, rfl⟩, taken⟩
      · rintro ⟨found, ⟨rfl, rfl⟩, taken⟩
        exact ⟨subtree, taken, rfl, rfl⟩

theorem depthAbove_eq_ok_iff
    {limit depth above : Nat} :
    depthAbove limit depth = .ok above ↔
      depth < limit ∧ above = depth + 1 := by
  unfold depthAbove
  by_cases within : depth < limit
  · simp [within, eq_comm]
  · simp [within]

/-- A binary operator is reduced when both its neighbours are operands and the
limit allows for one more level. -/
theorem reduceBinary_eq_ok_iff
    {limit : Nat}
    {focus : Focus Slot BinaryOp}
    {row : Row} :
    reduceBinary limit focus = .ok row ↔
      ∃ (leftSlot rightSlot : Slot) (left right : Subtree) (before after : Row),
        focus.before = leftSlot :: before ∧
        focus.after = rightSlot :: after ∧
        leftSlot.operand (.binary focus.found) .left = .ok left ∧
        rightSlot.operand (.binary focus.found) .right = .ok right ∧
        max left.depth right.depth < limit ∧
        row = Focus.fill before
          (.node ⟨.binary focus.found left.tree right.tree,
            max left.depth right.depth + 1⟩) after := by
  simp only [reduceBinary, bind_eq_ok_iff, Prod.exists, takeOperand_eq_ok_iff,
    depthAbove_eq_ok_iff, pure, Except.pure, Except.ok.injEq]
  constructor
  · rintro ⟨right, after, ⟨rightSlot, after_eq, rightTaken⟩,
      left, before, ⟨leftSlot, before_eq, leftTaken⟩,
      depth, ⟨within, rfl⟩, rfl⟩
    exact ⟨leftSlot, rightSlot, left, right, before, after, before_eq, after_eq,
      leftTaken, rightTaken, within, rfl⟩
  · rintro ⟨leftSlot, rightSlot, left, right, before, after, before_eq,
      after_eq, leftTaken, rightTaken, within, rfl⟩
    exact ⟨right, after, ⟨rightSlot, after_eq, rightTaken⟩,
      left, before, ⟨leftSlot, before_eq, leftTaken⟩, _, ⟨within, rfl⟩, rfl⟩

/-- A negation is reduced when its right neighbour is an operand and the limit
allows for one more level. -/
theorem reduceNegation_eq_ok_iff
    {limit : Nat}
    {focus : Focus Slot Token}
    {row : Row} :
    reduceNegation limit focus = .ok row ↔
      ∃ (slot : Slot) (child : Subtree) (after : Row),
        focus.after = slot :: after ∧
        slot.operand .not .right = .ok child ∧
        child.depth < limit ∧
        row = Focus.fill focus.before
          (.node ⟨.not child.tree, child.depth + 1⟩) after := by
  simp only [reduceNegation, bind_eq_ok_iff, Prod.exists,
    takeOperand_eq_ok_iff, depthAbove_eq_ok_iff, pure, Except.pure,
    Except.ok.injEq]
  constructor
  · rintro ⟨child, after, ⟨slot, after_eq, taken⟩, depth, ⟨within, rfl⟩, rfl⟩
    exact ⟨slot, child, after, after_eq, taken, within, rfl⟩
  · rintro ⟨slot, child, after, after_eq, taken, within, rfl⟩
    exact ⟨child, after, ⟨slot, after_eq, taken⟩, _, ⟨within, rfl⟩, rfl⟩

end Row

namespace Phase

/-- Reduce the next operator of a phase, if one is left. -/
def step?
    (limit : Nat)
    (row : Row) : Phase → Option (Except ParseError Row)
  | binary ops =>
      (Focus.first? (Slot.binaryOp? ops) row).map (Row.reduceBinary limit)
  | negation =>
      (Focus.last? Slot.negation? row).map (Row.reduceNegation limit)

/-- A step of a phase takes a row to another: an operator and its operands give
way to one node. -/
inductive Steps (limit : Nat) : Phase → Row → Row → Prop
  | binary
      {ops : List BinaryOp}
      {op : BinaryOp}
      {operator : Token}
      {leftSlot rightSlot : Slot}
      {left right : Subtree}
      {front back : Row}
      (member : op ∈ ops)
      (isOperator : operator.kind = .operator (.binary op))
      (leftmost : ∀ slot ∈ front, slot.binaryOp? ops = none)
      (leftTaken : leftSlot.operand (.binary op) .left = .ok left)
      (rightTaken : rightSlot.operand (.binary op) .right = .ok right)
      (within : max left.depth right.depth < limit) :
      Steps limit (.binary ops)
        (front ++ leftSlot :: .token operator :: rightSlot :: back)
        (front ++ .node ⟨.binary op left.tree right.tree,
          max left.depth right.depth + 1⟩ :: back)
  | negation
      {operator : Token}
      {slot : Slot}
      {child : Subtree}
      {front back : Row}
      (isOperator : operator.kind = .not)
      (rightmost : ∀ other ∈ back, other.negation? = none)
      (taken : slot.operand .not .right = .ok child)
      (within : child.depth < limit) :
      Steps limit .negation
        (front ++ .token operator :: slot :: back)
        (front ++ .node ⟨.not child.tree, child.depth + 1⟩ :: back)

/-- Everything that a step that succeeds can do. -/
theorem step?_eq_some_ok_iff
    {limit : Nat}
    {row next : Row}
    {phase : Phase} :
    phase.step? limit row = some (.ok next) ↔ phase.Steps limit row next := by
  constructor
  · intro stepped
    cases phase with
    | binary ops =>
        obtain ⟨focus, selected, reduced⟩ := Option.map_eq_some_iff.mp stepped
        obtain ⟨slot, slotSelected, rfl, leftmost⟩ :=
          Focus.first?_eq_some_iff.mp selected
        obtain ⟨member, operator, rfl, isOperator⟩ :=
          Slot.binaryOp?_eq_some_iff.mp slotSelected
        obtain ⟨leftSlot, rightSlot, left, right, before, after, before_eq,
          after_eq, leftTaken, rightTaken, within, rfl⟩ :=
          Row.reduceBinary_eq_ok_iff.mp reduced
        rw [before_eq] at leftmost
        simp only [Focus.fill_eq, before_eq, after_eq, List.reverse_cons,
          List.append_assoc, List.cons_append, List.nil_append]
        refine .binary member isOperator ?_ leftTaken rightTaken within
        intro other otherMember
        exact leftmost other
          (List.mem_cons_of_mem _ (List.mem_reverse.mp otherMember))
    | negation =>
        obtain ⟨focus, selected, reduced⟩ := Option.map_eq_some_iff.mp stepped
        obtain ⟨slot, slotSelected, rfl, rightmost⟩ :=
          Focus.last?_eq_some_iff.mp selected
        obtain ⟨rfl, isOperator⟩ := Slot.negation?_eq_some_iff.mp slotSelected
        obtain ⟨operand, child, after, after_eq, taken, within, rfl⟩ :=
          Row.reduceNegation_eq_ok_iff.mp reduced
        rw [after_eq] at rightmost
        simp only [Focus.fill_eq, after_eq]
        refine .negation isOperator ?_ taken within
        intro other otherMember
        exact rightmost other (List.mem_cons_of_mem _ otherMember)
  · rintro (⟨member, isOperator, leftmost, leftTaken, rightTaken, within⟩ |
      ⟨isOperator, rightmost, taken, within⟩)
    · rename_i ops op operator leftSlot rightSlot left right front back
      have selected :
          Focus.first? (Slot.binaryOp? ops)
              (front ++ leftSlot :: .token operator :: rightSlot :: back) =
            some ⟨leftSlot :: front.reverse, op, rightSlot :: back⟩ := by
        apply Focus.first?_eq_some_iff.mpr
        refine ⟨.token operator, Slot.binaryOp?_eq_some_iff.mpr
          ⟨member, operator, rfl, isOperator⟩, by simp [Focus.fill_eq], ?_⟩
        intro other otherMember
        rcases List.mem_cons.mp otherMember with rfl | otherMember
        · exact Slot.binaryOp?_of_operand leftTaken
        · exact leftmost other (List.mem_reverse.mp otherMember)
      refine Option.map_eq_some_iff.mpr ⟨_, selected, ?_⟩
      apply Row.reduceBinary_eq_ok_iff.mpr
      exact ⟨leftSlot, rightSlot, left, right, front.reverse, back, rfl, rfl,
        leftTaken, rightTaken, within, by simp [Focus.fill_eq]⟩
    · rename_i operator slot child front back
      have selected :
          Focus.last? Slot.negation?
              (front ++ .token operator :: slot :: back) =
            some ⟨front.reverse, operator, slot :: back⟩ := by
        apply Focus.last?_eq_some_iff.mpr
        refine ⟨.token operator, Slot.negation?_eq_some_iff.mpr
          ⟨rfl, isOperator⟩, by simp [Focus.fill_eq], ?_⟩
        intro other otherMember
        rcases List.mem_cons.mp otherMember with rfl | otherMember
        · exact Slot.negation?_of_operand taken
        · exact rightmost other otherMember
      refine Option.map_eq_some_iff.mpr ⟨_, selected, ?_⟩
      apply Row.reduceNegation_eq_ok_iff.mpr
      exact ⟨slot, child, back, rfl, taken, within, by simp [Focus.fill_eq]⟩

theorem step?_binary_eq_none_iff
    {limit : Nat}
    {ops : List BinaryOp}
    {row : Row} :
    (binary ops).step? limit row = none ↔
      ∀ slot ∈ row, slot.binaryOp? ops = none := by
  rw [step?, Option.map_eq_none_iff, Focus.first?_eq_none_iff]

theorem step?_negation_eq_none_iff
    {limit : Nat}
    {row : Row} :
    negation.step? limit row = none ↔
      ∀ slot ∈ row, slot.negation? = none := by
  rw [step?, Option.map_eq_none_iff, Focus.last?_eq_none_iff]

/-- A binary phase has ended or has a leftmost operator. -/
theorem step?_binary_cases
    (limit : Nat)
    (ops : List BinaryOp)
    (row : Row) :
    (binary ops).step? limit row = none ∨
      ∃ (op : BinaryOp) (operator : Token) (front back : Row),
        op ∈ ops ∧
        operator.kind = .operator (.binary op) ∧
        row = front ++ .token operator :: back ∧
        ∀ slot ∈ front, slot.binaryOp? ops = none := by
  cases selected : Focus.first? (Slot.binaryOp? ops) row with
  | none =>
      left
      rw [step?, selected, Option.map_none]
  | some focus =>
      right
      obtain ⟨slot, slotSelected, rfl, leftmost⟩ :=
        Focus.first?_eq_some_iff.mp selected
      obtain ⟨member, operator, rfl, isOperator⟩ :=
        Slot.binaryOp?_eq_some_iff.mp slotSelected
      refine ⟨focus.found, operator, focus.before.reverse, focus.after, member,
        isOperator, Focus.fill_eq _ _ _, ?_⟩
      intro other otherMember
      exact leftmost other (List.mem_reverse.mp otherMember)

/-- The phase of negations has ended or has a rightmost negation. -/
theorem step?_negation_cases
    (limit : Nat)
    (row : Row) :
    negation.step? limit row = none ∨
      ∃ (operator : Token) (front back : Row),
        operator.kind = .not ∧
        row = front ++ .token operator :: back ∧
        ∀ slot ∈ back, slot.negation? = none := by
  cases selected : Focus.last? Slot.negation? row with
  | none =>
      left
      rw [step?, selected, Option.map_none]
  | some focus =>
      right
      obtain ⟨slot, slotSelected, rfl, rightmost⟩ :=
        Focus.last?_eq_some_iff.mp selected
      obtain ⟨rfl, isOperator⟩ := Slot.negation?_eq_some_iff.mp slotSelected
      exact ⟨focus.found, focus.before.reverse, focus.after, isOperator,
        Focus.fill_eq _ _ _, rightmost⟩

/-- A step leaves fewer tokens than it found. -/
theorem tokenCount_of_step?
    {limit : Nat}
    {row next : Row}
    {phase : Phase}
    (stepped : phase.step? limit row = some (.ok next)) :
    next.tokenCount < row.tokenCount := by
  rcases step?_eq_some_ok_iff.mp stepped with
    ⟨_, _, _, leftTaken, rightTaken, _⟩ | ⟨_, _, taken, _⟩
  · simp only [Row.tokenCount_append, Row.tokenCount_cons,
      Slot.tokenCount_of_operand leftTaken, Slot.tokenCount_token,
      Slot.tokenCount_of_operand rightTaken, Slot.tokenCount_node]
    omega
  · simp only [Row.tokenCount_append, Row.tokenCount_cons,
      Slot.tokenCount_token, Slot.tokenCount_of_operand taken,
      Slot.tokenCount_node]
    omega

/-- Reduce until no operator of the phase is left. -/
def exhaust
    (limit : Nat)
    (row : Row)
    (phase : Phase) : Except ParseError Row :=
  match _stepped : phase.step? limit row with
  | none => .ok row
  | some (.error fault) => .error fault
  | some (.ok next) => phase.exhaust limit next
termination_by row.tokenCount
decreasing_by exact tokenCount_of_step? _stepped

theorem exhaust_of_step?_eq_none
    {limit : Nat}
    {row : Row}
    {phase : Phase}
    (ended : phase.step? limit row = none) :
    phase.exhaust limit row = .ok row := by
  rw [exhaust]
  split <;> simp_all

theorem exhaust_of_step?_eq_some
    {limit : Nat}
    {row : Row}
    {phase : Phase}
    {outcome : Except ParseError Row}
    (stepped : phase.step? limit row = some outcome) :
    phase.exhaust limit row =
      outcome >>= fun next => phase.exhaust limit next := by
  rw [exhaust]
  split
  · simp_all
  · rename_i fault failed
    rw [stepped, Option.some.injEq] at failed
    subst failed
    rfl
  · rename_i next succeeded
    rw [stepped, Option.some.injEq] at succeeded
    subst succeeded
    rfl

/-- A schedule that resolves comparisons in rounds, then negations, then `AND`,
then `OR`. -/
def schedule (rounds : List (List Comparison)) : List Phase :=
  rounds.map (fun kinds => binary (kinds.map BinaryOp.comparison)) ++
    [negation, binary [.and], binary [.or]]

/-- The schedule that resolves the comparisons kind by kind. -/
def standard : List Phase :=
  schedule (Comparison.resolutionOrder.map fun kind => [kind])

end Phase
end FilterLang
