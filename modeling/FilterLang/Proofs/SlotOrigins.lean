import FilterLang.Proofs.GroupReduction

/-!
# The tokens that a slot is made from

While the operators of a row are reduced, every slot is made from adjacent
tokens: a token that is still to be used, or what an operand, a group or an
operator with its operands became. These parts close every parenthesis that they
open, so their first and last tokens stand outside of all groups. Steps of every
phase keep this up.
-/

namespace FilterLang

/-! ## Places outside of groups -/

/-- A token stands at a place of a list, and no pair of parentheses encloses
it. -/
def StandsOutside
    (tokens : List Token)
    (place : Nat)
    (token : Token) : Prop :=
  tokens[place]? = some token ∧ nestingLevel tokens place = 0

/-- There is a closing parenthesis at a place that matches no other. -/
def IsUnmatchedClose
    (tokens : List Token)
    (place : Nat) : Prop :=
  (tokens[place]?).any (·.kind = .closeParen) ∧
    ∀ pair ∈ parenPairs tokens, pair.closing ≠ place

/-- An operand may begin at a place outside of all groups: with a name, a value,
a negation or a group. -/
def BeginsOperand
    (tokens : List Token)
    (place : Nat) : Prop :=
  ∃ token, StandsOutside tokens place token ∧
    (token.leaf?.isSome ∨ token.kind = .not ∨
      ∃ pair ∈ parenPairs tokens, pair.opening = place)

/-- An operand may end at a place outside of all groups: with a name, a value or
a group. -/
def EndsOperand
    (tokens : List Token)
    (place : Nat) : Prop :=
  ∃ token, StandsOutside tokens place token ∧
    (token.leaf?.isSome ∨ ∃ pair ∈ parenPairs tokens, pair.closing = place)

section

variable {front back : List Token} {token : Token}

theorem Closed.standsOutside
    (closed : Closed front)
    (token : Token)
    (back : List Token) :
    StandsOutside (front ++ token :: back) front.length token :=
  ⟨by simp, closed.nestingLevel_behind _⟩

theorem Closed.standsOutside_last
    (closed : Closed (front ++ [token]))
    (back : List Token) :
    StandsOutside (front ++ token :: back) front.length token :=
  ⟨by simp, closed.nestingLevel_last back⟩

theorem Closed.isUnmatchedClose
    (closed : Closed front)
    (isClosing : token.kind = .closeParen)
    (back : List Token) :
    IsUnmatchedClose (front ++ token :: back) front.length :=
  ⟨by simp [isClosing], closed.closing_ne isClosing back⟩

theorem closed_of_leaf
    {leaf : Expr}
    (stands : token.leaf? = some leaf) :
    Closed [token] := by
  apply closed_singleton
  intro isOpening
  simp [Token.leaf?, isOpening] at stands

theorem closed_of_operator
    {operator : Operator}
    (isOperator : token.kind = .operator operator) :
    Closed [token] := by
  apply closed_singleton
  simp [isOperator]

/-- The parentheses of an outermost group stand outside of all groups. -/
theorem standsOutside_of_group
    {contents : List Token}
    {opening closing : Token}
    (closed : Closed front)
    (isOpening : opening.kind = .openParen)
    (balanced : Balanced contents)
    (isClosing : closing.kind = .closeParen)
    (back : List Token) :
    let tokens := front ++ (opening :: (contents ++ [closing]) ++ back)
    ∃ pair ∈ parenPairs tokens,
      pair.opening = front.length ∧
      pair.closing = front.length + 1 + contents.length ∧
      StandsOutside tokens pair.opening opening ∧
      StandsOutside tokens pair.closing closing := by
  intro tokens
  have tokens_eq :
      tokens = front ++ opening :: (contents ++ closing :: back) := by
    simp [tokens]
  have wholeClosed : Closed ((front ++ opening :: contents) ++ [closing]) := by
    rw [List.append_assoc]
    exact closed.append (closed_group isOpening balanced isClosing)
  have atClosing := wholeClosed.standsOutside_last back
  have length_eq :
      (front ++ opening :: contents).length =
        front.length + 1 + contents.length := by
    simp only [List.length_append, List.length_cons]
    omega
  rw [List.append_assoc, List.cons_append, ← tokens_eq, length_eq]
    at atClosing
  obtain ⟨pair, member, opening_eq, closing_eq, -⟩ :=
    pair_of_group closed isOpening balanced isClosing back
  rw [← tokens_eq] at member
  refine ⟨pair, member, opening_eq, closing_eq, ?_, ?_⟩
  · rw [opening_eq]
    exact closed.standsOutside _ _
  · rw [closing_eq]
    exact atClosing

/-- The tokens of a comparison of bare operands stand outside of all groups. -/
theorem standsOutside_of_comparison
    {first symbol second : Token}
    {leaf : Expr}
    {operator : Operator}
    (closed : Closed front)
    (stands : first.leaf? = some leaf)
    (isOperator : symbol.kind = .operator operator)
    (back : List Token) :
    let tokens := front ++ ([first, symbol, second] ++ back)
    StandsOutside tokens front.length first ∧
      StandsOutside tokens (front.length + 1) symbol ∧
      StandsOutside tokens (front.length + 2) second := by
  intro tokens
  have firstClosed := closed.append (closed_of_leaf stands)
  have symbolClosed := firstClosed.append (closed_of_operator isOperator)
  have atSymbol := firstClosed.standsOutside symbol (second :: back)
  have atSecond := symbolClosed.standsOutside second back
  simp only [List.append_assoc, List.length_append] at atSymbol atSecond
  exact ⟨closed.standsOutside _ _, atSymbol, atSecond⟩

end

/-! ## Slots -/

/-- A slot is made from some adjacent tokens. -/
inductive Slot.Made : Slot → List Token → Prop
  | token
      {found : Token}
      (unused : 0 < found.kind.rank) :
      Made (.token found) [found]
  | leaf
      {found : Token}
      {leaf : Expr}
      {depth : Nat}
      (stands : found.leaf? = some leaf) :
      Made (.node ⟨leaf, depth⟩) [found]
  | group
      {opening closing : Token}
      {contents : List Token}
      {subtree : Subtree}
      (isOpening : opening.kind = .openParen)
      (balanced : Balanced contents)
      (isClosing : closing.kind = .closeParen) :
      Made (.group subtree) (opening :: (contents ++ [closing]))
  | comparison
      {kind : Comparison}
      {first symbol second : Token}
      {left right : Expr}
      {depth : Nat}
      (leftStands : first.leaf? = some left)
      (isOperator : symbol.kind = .comparison kind)
      (rightStands : second.leaf? = some right) :
      Made (.node ⟨.binary (.comparison kind) left right, depth⟩)
        [first, symbol, second]
  | negation
      {symbol : Token}
      {slot : Slot}
      {part : List Token}
      {child : Subtree}
      {depth : Nat}
      (isNot : symbol.kind = .not)
      (made : Made slot part)
      (taken : slot.operand .not .right = .ok child) :
      Made (.node ⟨.not child.tree, depth⟩) (symbol :: part)
  | join
      {op : BinaryOp}
      {symbol : Token}
      {leftSlot rightSlot : Slot}
      {front back : List Token}
      {left right : Subtree}
      {depth : Nat}
      (isOperator : symbol.kind = .operator (.binary op))
      (isConnective : op.isComparison = false)
      (leftMade : Made leftSlot front)
      (leftTaken : leftSlot.operand (.binary op) .left = .ok left)
      (rightMade : Made rightSlot back)
      (rightTaken : rightSlot.operand (.binary op) .right = .ok right) :
      Made (.node ⟨.binary op left.tree right.tree, depth⟩)
        (front ++ symbol :: back)

namespace Slot

namespace Made

variable {slot : Slot} {subtree : Subtree} {part : List Token}

theorem closed (made : slot.Made part) :
    Closed part := by
  induction made with
  | token unused =>
      apply closed_singleton
      intro isOpening
      rw [isOpening] at unused
      exact Nat.lt_irrefl 0 unused
  | leaf stands => exact closed_of_leaf stands
  | group isOpening balanced isClosing =>
      exact closed_group isOpening balanced isClosing
  | comparison leftStands isOperator rightStands =>
      exact (closed_of_leaf leftStands).append
        ((closed_of_operator isOperator).append (closed_of_leaf rightStands))
  | negation isNot made taken hypothesis =>
      exact (closed_of_operator isNot).append hypothesis
  | join isOperator isConnective leftMade leftTaken rightMade rightTaken
      leftHypothesis rightHypothesis =>
      exact leftHypothesis.append
        ((closed_of_operator isOperator).append rightHypothesis)

/-- A bare leaf is made from one token. -/
theorem eq_of_isLeaf
    (made : (node subtree).Made part)
    (isLeaf : subtree.tree.isLeaf) :
    ∃ found, part = [found] ∧ found.leaf? = some subtree.tree := by
  cases made with
  | @leaf found _ _ stands => exact ⟨found, rfl, stands⟩
  | comparison => cases isLeaf
  | negation => cases isLeaf
  | join => cases isLeaf

/-- Before negations are reduced, a node that is no leaf is made from a
comparison. -/
theorem eq_of_comparison
    (made : (node subtree).Made part)
    (notLeaf : subtree.tree.isLeaf = false)
    (tight : subtree.tree.level.rank ≤ 1) :
    ∃ (first symbol second : Token) (kind : Comparison),
      part = [first, symbol, second] ∧
      first.leaf?.isSome ∧
      symbol.kind = .comparison kind ∧
      second.leaf?.isSome := by
  cases made with
  | leaf stands => simp [isLeaf_of_leaf? stands] at notLeaf
  | @comparison kind first symbol second _ _ _ leftStands isOperator
      rightStands =>
      exact ⟨first, symbol, second, kind, rfl, by simp [leftStands], isOperator,
        by simp [rightStands]⟩
  | negation => simp [Expr.level, Level.rank] at tight
  | @join op _ _ _ _ _ _ _ _ _ isConnective =>
      cases op with
      | comparison => cases isConnective
      | and => simp [Expr.level, BinaryOp.level, Level.rank] at tight
      | or => simp [Expr.level, BinaryOp.level, Level.rank] at tight

/-- The first token that an operand is made from may begin an operand. -/
theorem begins
    (made : slot.Made part)
    (isOperand : slot.token? = none)
    {front : List Token}
    (frontClosed : Closed front)
    (back : List Token) :
    BeginsOperand (front ++ (part ++ back)) front.length := by
  induction made generalizing back with
  | token => cases isOperand
  | leaf stands =>
      exact ⟨_, frontClosed.standsOutside _ _, Or.inl (by simp [stands])⟩
  | group isOpening balanced isClosing =>
      obtain ⟨pair, member, opening_eq, -, outside, -⟩ :=
        standsOutside_of_group frontClosed isOpening balanced isClosing back
      rw [← opening_eq]
      exact ⟨_, outside, Or.inr (Or.inr ⟨pair, member, rfl⟩)⟩
  | comparison leftStands =>
      exact ⟨_, frontClosed.standsOutside _ _, Or.inl (by simp [leftStands])⟩
  | negation isNot =>
      exact ⟨_, frontClosed.standsOutside _ _, Or.inr (Or.inl isNot)⟩
  | join isOperator isConnective leftMade leftTaken rightMade rightTaken
      leftHypothesis =>
      rw [List.append_assoc]
      exact leftHypothesis (token?_of_operand leftTaken) _

/-- The last token that an operand is made from may end an operand. -/
theorem ends
    (made : slot.Made part)
    (isOperand : slot.token? = none)
    {front : List Token}
    (frontClosed : Closed front)
    (back : List Token) :
    ∃ place, place + 1 = front.length + part.length ∧
      EndsOperand (front ++ (part ++ back)) place := by
  induction made generalizing front with
  | token => cases isOperand
  | leaf stands =>
      exact ⟨front.length, rfl, _, frontClosed.standsOutside _ _,
        Or.inl (by simp [stands])⟩
  | group isOpening balanced isClosing =>
      obtain ⟨pair, member, -, closing_eq, -, outside⟩ :=
        standsOutside_of_group frontClosed isOpening balanced isClosing back
      refine ⟨pair.closing, ?_, _, outside, Or.inr ⟨pair, member, rfl⟩⟩
      rw [closing_eq]
      simp only [List.length_cons, List.length_append, List.length_nil]
      omega
  | comparison leftStands isOperator rightStands =>
      obtain ⟨-, -, outside⟩ :=
        standsOutside_of_comparison frontClosed leftStands isOperator back
      exact ⟨front.length + 2, rfl, _, outside, Or.inl (by simp [rightStands])⟩
  | @negation symbol slot part child depth isNot made taken hypothesis =>
      obtain ⟨place, place_eq, ends⟩ := hypothesis (token?_of_operand taken)
        (frontClosed.append (closed_of_operator isNot))
      refine ⟨place, ?_, ?_⟩
      · rw [place_eq]
        simp
        omega
      · rw [List.append_assoc] at ends
        exact ends
  | @join op symbol leftSlot rightSlot left right _ _ _ isOperator isConnective
      leftMade leftTaken rightMade rightTaken leftHypothesis rightHypothesis =>
      obtain ⟨place, place_eq, ends⟩ := rightHypothesis
        (token?_of_operand rightTaken)
        (frontClosed.append
          (leftMade.closed.append (closed_of_operator isOperator)))
      refine ⟨place, ?_, ?_⟩
      · rw [place_eq]
        simp
        omega
      · simpa using ends

/-- The node that takes the place of an operator and its operands is made from
their tokens. -/
theorem binary
    {op : BinaryOp}
    {symbol : Token}
    {leftSlot rightSlot : Slot}
    {left right : Subtree}
    {front back : List Token}
    (isOperator : symbol.kind = .operator (.binary op))
    (leftMade : leftSlot.Made front)
    (leftTaken : leftSlot.operand (.binary op) .left = .ok left)
    (rightMade : rightSlot.Made back)
    (rightTaken : rightSlot.operand (.binary op) .right = .ok right)
    (depth : Nat) :
    (node ⟨.binary op left.tree right.tree, depth⟩).Made
      (front ++ symbol :: back) := by
  cases isComparison : op.isComparison with
  | false =>
      exact .join isOperator isComparison leftMade leftTaken rightMade
        rightTaken
  | true =>
      cases op with
      | comparison kind =>
          -- A comparison takes bare leaves, which are made from one token each.
          rcases operand_eq_ok_iff.mp leftTaken with
            ⟨rfl, leftLeaf⟩ | ⟨-, contradictory⟩
          · rcases operand_eq_ok_iff.mp rightTaken with
              ⟨rfl, rightLeaf⟩ | ⟨-, contradictory⟩
            · obtain ⟨first, rfl, leftStands⟩ :=
                leftMade.eq_of_isLeaf (leftLeaf rfl)
              obtain ⟨second, rfl, rightStands⟩ :=
                rightMade.eq_of_isLeaf (rightLeaf rfl)
              exact .comparison leftStands isOperator rightStands
            · cases contradictory
          · cases contradictory
      | and => cases isComparison
      | or => cases isComparison

end Made
end Slot

/-! ## Rows -/

namespace Row

theorem covers_cons_iff
    {holds : Slot → List Token → Prop}
    {slot : Slot}
    {row : Row}
    {tokens : List Token} :
    Covers holds (slot :: row) tokens ↔
      ∃ part rest, tokens = part ++ rest ∧ holds slot part ∧
        Covers holds row rest := by
  constructor
  · intro covers
    cases covers with
    | @cons _ _ part rest first later =>
        exact ⟨part, rest, rfl, first, later⟩
  · rintro ⟨part, rest, rfl, first, later⟩
    exact .cons first later

/-- A token that is still to be used stands between what the slots on its two
sides are made from. -/
theorem Covers.divide_at_token
    {front back : Row}
    {symbol : Token}
    {tokens : List Token}
    (covers : Covers Slot.Made (front ++ .token symbol :: back) tokens) :
    ∃ frontTokens backTokens,
      tokens = frontTokens ++ symbol :: backTokens ∧
      front.Covers Slot.Made frontTokens ∧
      (Slot.token symbol).Made [symbol] ∧
      back.Covers Slot.Made backTokens := by
  obtain ⟨frontTokens, rest, rfl, frontCovers, restCovers⟩ := covers.divide
  obtain ⟨symbols, backTokens, rfl, symbolMade, backCovers⟩ :=
    covers_cons_iff.mp restCovers
  cases symbolMade with
  | token unused =>
      exact ⟨frontTokens, backTokens, rfl, frontCovers, .token unused,
        backCovers⟩

/-- Steps of any phase keep up what the slots are made from. -/
theorem Covers.steps
    {limit : Nat}
    {phase : Phase}
    {row next : Row}
    {tokens : List Token}
    (covers : row.Covers Slot.Made tokens)
    (steps : phase.Steps limit row next) :
    next.Covers Slot.Made tokens := by
  cases steps with
  | @binary _ _ _ _ _ left right _ _ member isOperator leftmost leftTaken
      rightTaken within =>
      obtain ⟨frontTokens, rest, rfl, frontCovers, restCovers⟩ := covers.divide
      obtain ⟨leftPart, rest, rfl, leftMade, restCovers⟩ :=
        covers_cons_iff.mp restCovers
      obtain ⟨symbols, rest, rfl, symbolMade, restCovers⟩ :=
        covers_cons_iff.mp restCovers
      obtain ⟨rightPart, rest, rfl, rightMade, backCovers⟩ :=
        covers_cons_iff.mp restCovers
      cases symbolMade
      have made :=
        Slot.Made.binary isOperator leftMade leftTaken rightMade rightTaken
      have later := frontCovers.append
        (.cons (made (max left.depth right.depth + 1)) backCovers)
      simpa using later
  | @negation _ _ child _ _ isOperator rightmost taken within =>
      obtain ⟨frontTokens, rest, rfl, frontCovers, -, restCovers⟩ :=
        covers.divide_at_token
      obtain ⟨part, rest, rfl, made, backCovers⟩ :=
        covers_cons_iff.mp restCovers
      have node : (Slot.node ⟨.not child.tree, child.depth + 1⟩).Made _ :=
        .negation isOperator made taken
      have later := frontCovers.append (.cons node backCovers)
      simpa using later

theorem Covers.steps_of_schedule
    {limit : Nat}
    {tokens : List Token}
    (schedule : List Phase) :
    ∀ phase ∈ schedule, ∀ row next, Covers Slot.Made row tokens →
      Phase.Steps limit phase row next → Covers Slot.Made next tokens :=
  fun _ _ _ _ covers steps => covers.steps steps

theorem Covers.made_closed
    {row : Row}
    {tokens : List Token}
    (covers : row.Covers Slot.Made tokens) :
    Closed tokens :=
  covers.closed fun _ _ => Slot.Made.closed

end Row

/-- Once names and values are leaves, the slots of a row whose groups have been
reduced are made from their parts. -/
theorem Slot.Reduced.made_toLeaf
    {schedule : List Phase}
    {limit level : Nat}
    {slot : Slot}
    {part : List Token}
    (reduced : slot.Reduced schedule limit level part) :
    slot.toLeaf.Made part := by
  cases reduced with
  | @token found notOpening =>
      obtain ⟨kind, text, span⟩ := found
      cases kind with
      | operator operator =>
          cases operator with
          | not => exact .token (Nat.zero_lt_succ _)
          | binary op => exact .token op.level.comparison_rank_le
      | identifier => exact .leaf rfl
      | literal => exact .leaf rfl
      | openParen => exact absurd rfl notOpening
      | closeParen => exact .token (Nat.zero_lt_succ _)
  | group isOpening balanced isClosing reduced =>
      exact .group isOpening balanced isClosing

end FilterLang
