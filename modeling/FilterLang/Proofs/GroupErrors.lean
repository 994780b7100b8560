import FilterLang.Proofs.GroupReduction

/-!
# Errors inside groups

An error that is reported from inside of groups is that of the tokens between
two matching parentheses, which have as many groups around them as the error
tells. On their own these tokens have the same error. It is never an unmatched
parenthesis, for the tokens between two matching ones are balanced.
-/

namespace FilterLang

namespace Row

variable {schedule : List Phase} {limit level : Nat} {tokens : List Token}

/-- An error at a group is that of an unmatched parenthesis or that of the
tokens between two matching ones. -/
theorem unmatched_or_faulty
    {fault : ParseError}
    (failed : reduce schedule limit level (ofTokens tokens) = .error fault)
    (isOfGroup : fault.isOfGroup) :
    (∃ (row : Row) (front behind : List Token) (opening : Token) (outer : Nat),
      tokens = front ++ opening :: behind ∧
      row.Covers (Slot.Reduced schedule limit level) front ∧
      opening.kind = .openParen ∧
      LeavesOpen 0 behind outer ∧
      fault = if behind.isEmpty then
        .danglingOpen opening.position
      else
        .unmatchedOpen opening.position) ∨
    ∃ (front contents behind : List Token) (opening closing : Token),
      tokens = front ++ opening :: (contents ++ closing :: behind) ∧
      Closed front ∧
      opening.kind = .openParen ∧
      Balanced contents ∧
      closing.kind = .closeParen ∧
      reduceBetween schedule limit level opening contents = .error fault := by
  have notTooDeep : fault ≠ .tooDeep limit := by
    rintro rfl
    cases isOfGroup
  obtain ⟨-, outcome⟩ := groupOutcome_error failed notTooDeep
  cases outcome with
  | assembled covers assembled_eq =>
      rw [assemble_eq_error assembled_eq] at isOfGroup
      cases isOfGroup
  | unmatched tokens_eq covers isOpening leaves =>
      exact Or.inl
        ⟨_, _, _, _, _, tokens_eq, covers, isOpening, leaves, rfl⟩
  | faulty tokens_eq frontClosed isOpening balanced isClosing between =>
      exact Or.inr ⟨_, _, _, _, _, tokens_eq, frontClosed, isOpening, balanced,
        isClosing, between⟩

/-- An error from inside a group is that of its contents. -/
theorem reduce_eq_inGroup
    {inner : ParseError}
    (failed : reduce schedule limit level (ofTokens tokens) =
      .error (.inGroup inner)) :
    ∃ (front contents behind : List Token) (opening closing : Token),
      tokens = front ++ opening :: (contents ++ closing :: behind) ∧
      Closed front ∧
      opening.kind = .openParen ∧
      Balanced contents ∧
      closing.kind = .closeParen ∧
      reduce schedule limit (level + 1) (ofTokens contents) = .error inner ∧
      ∀ other, inner ≠ .tooDeep other := by
  rcases unmatched_or_faulty failed rfl with
    ⟨_, _, _, _, _, -, -, -, -, fault_eq⟩ |
      ⟨front, contents, behind, opening, closing, tokens_eq, frontClosed,
        isOpening, balanced, isClosing, between⟩
  · split at fault_eq <;> cases fault_eq
  · rcases reduceBetween_eq_error between with
      ⟨-, isEmpty⟩ | ⟨other, wrapped, contentsFailed⟩
    · cases isEmpty
    · obtain ⟨rfl, notTooDeep⟩ := outsideGroup_eq_inGroup wrapped.symm
      exact ⟨front, contents, behind, opening, closing, tokens_eq, frontClosed,
        isOpening, balanced, isClosing, contentsFailed, notTooDeep⟩

/-- A group without contents is two parentheses next to each other. -/
theorem reduce_eq_emptyGroup
    {position : Nat}
    (failed : reduce schedule limit level (ofTokens tokens) =
      .error (.emptyGroup position)) :
    ∃ (front behind : List Token) (opening closing : Token),
      tokens = front ++ opening :: closing :: behind ∧
      opening.kind = .openParen ∧
      opening.position = position ∧
      closing.kind = .closeParen := by
  rcases unmatched_or_faulty failed rfl with
    ⟨_, _, _, _, _, -, -, -, -, fault_eq⟩ |
      ⟨front, contents, behind, opening, closing, tokens_eq, -, isOpening, -,
        isClosing, between⟩
  · split at fault_eq <;> cases fault_eq
  · rcases reduceBetween_eq_error between with
      ⟨rfl, isEmpty⟩ | ⟨other, wrapped, -⟩
    · cases isEmpty
      exact ⟨front, behind, opening, closing, tokens_eq, isOpening, rfl,
        isClosing⟩
    · cases other <;> cases wrapped

/-- An unmatched parenthesis stands behind groups that have been reduced, and
nothing behind it closes it. -/
theorem reduce_eq_unmatched
    {fault : ParseError}
    {position : Nat}
    (failed : reduce schedule limit level (ofTokens tokens) = .error fault)
    (isUnmatched : fault = .danglingOpen position ∨
      fault = .unmatchedOpen position) :
    ∃ (row : Row) (front behind : List Token) (opening : Token) (outer : Nat),
      tokens = front ++ opening :: behind ∧
      row.Covers (Slot.Reduced schedule limit level) front ∧
      opening.kind = .openParen ∧
      opening.position = position ∧
      LeavesOpen 0 behind outer ∧
      fault = if behind.isEmpty then
        .danglingOpen position
      else
        .unmatchedOpen position := by
  have isOfGroup : fault.isOfGroup := by
    rcases isUnmatched with rfl | rfl <;> rfl
  rcases unmatched_or_faulty failed isOfGroup with
    ⟨row, front, behind, opening, outer, tokens_eq, covers, isOpening, leaves,
      rfl⟩ | ⟨_, _, _, _, _, -, -, -, -, -, between⟩
  · obtain rfl : opening.position = position := by
      split at isUnmatched <;> simpa using isUnmatched
    exact ⟨row, front, behind, opening, outer, tokens_eq, covers, isOpening,
      rfl, leaves, rfl⟩
  · rcases reduceBetween_eq_error between with
      ⟨-, rfl⟩ | ⟨other, rfl, -⟩
    · simp at isUnmatched
    · cases other <;> simp [ParseError.outsideGroup] at isUnmatched

/-- Tokens that are balanced have no unmatched parenthesis. -/
theorem reduce_ne_unmatched
    {fault : ParseError}
    {position : Nat}
    (balanced : Balanced tokens)
    (failed : reduce schedule limit level (ofTokens tokens) = .error fault) :
    fault ≠ .danglingOpen position ∧ fault ≠ .unmatchedOpen position := by
  rw [← not_or]
  intro isUnmatched
  obtain ⟨row, front, behind, opening, outer, rfl, covers, isOpening, -, leaves,
    -⟩ := reduce_eq_unmatched failed isUnmatched
  have frontClosed := covers.closed fun _ _ => Slot.Reduced.closed
  exact balanced.closed.not_isUnmatchedOpen front.length
    (isFirstUnmatchedOpen frontClosed isOpening leaves).1

/-- An error from inside of groups is that of the contents of a group at the
level that it tells. -/
theorem reduce_error_located
    {error : ParseError}
    (failed : reduce schedule limit level (ofTokens tokens) = .error error)
    (wrapped : 1 ≤ error.levels) :
    ∃ pair ∈ parenPairs tokens,
      nestingLevel tokens pair.opening + 1 = error.levels ∧
      Balanced (pair.contents tokens) ∧
      (∀ other, error.innermost ≠ .tooDeep other) ∧
      reduce schedule limit (level + error.levels)
          (ofTokens (pair.contents tokens)) =
        .error error.innermost := by
  -- From the outermost group to the innermost one.
  induction error generalizing level tokens with
  | inGroup inner hypothesis =>
      obtain ⟨front, contents, behind, opening, closing, rfl, frontClosed,
        isOpening, balanced, isClosing, contentsFailed, notTooDeep⟩ :=
        reduce_eq_inGroup failed
      by_cases deeper : 1 ≤ inner.levels
      · obtain ⟨innerPair, innerMember, level_eq, pairBalanced, innermost,
          pairFailed⟩ := hypothesis contentsFailed deeper
        obtain ⟨pair, member, outerLevel_eq, contents_eq⟩ := pair_inside_group
          frontClosed isOpening balanced isClosing behind innerMember
        refine ⟨pair, member, ?_, ?_, innermost, ?_⟩
        · rw [outerLevel_eq, level_eq, ParseError.levels]
        · rw [contents_eq]
          exact pairBalanced
        · rw [contents_eq, ParseError.levels, Nat.add_comm inner.levels 1,
            ← Nat.add_assoc]
          exact pairFailed
      · obtain ⟨pair, member, opening_eq, -, contents_eq⟩ := pair_of_group
          frontClosed isOpening balanced isClosing behind
        have levels_eq : inner.levels = 0 := by omega
        have innermost_eq : inner.innermost = inner := by
          cases inner <;> simp_all [ParseError.levels, ParseError.innermost]
        refine ⟨pair, member, ?_, ?_, ?_, ?_⟩
        · rw [opening_eq, frontClosed.nestingLevel_behind, ParseError.levels,
            levels_eq]
        · rw [contents_eq]
          exact balanced
        · rw [ParseError.innermost, innermost_eq]
          exact notTooDeep
        · rw [contents_eq, ParseError.levels, levels_eq, ParseError.innermost,
            innermost_eq]
          exact contentsFailed
  | _ => simp [ParseError.levels] at wrapped

end Row

/-- An error that is wrapped for some groups around it lies in tokens between
two matching parentheses at just this level, and within the limit. On their own
these tokens fail with the error that was wrapped, which is about no parenthesis
without a match and not about the limit. -/
theorem group_error_located
    {maxDepth : Nat}
    {tokens : List Token}
    {error : ParseError}
    (failed : parse maxDepth tokens = .error error)
    (wrapped : 1 ≤ error.levels) :
    error.levels ≤ maxDepth ∧
      (∀ position, error.innermost ≠ .danglingOpen position) ∧
      (∀ position, error.innermost ≠ .unmatchedOpen position) ∧
      (∀ limit, error.innermost ≠ .tooDeep limit) ∧
      ∃ pair ∈ parenPairs tokens,
        nestingLevel tokens pair.opening + 1 = error.levels ∧
        parse maxDepth (pair.contents tokens) = .error error.innermost := by
  obtain ⟨pair, member, level_eq, balanced, notTooDeep, pairFailed⟩ :=
    Row.reduce_error_located (parse_eq_error_iff.mp failed) wrapped
  rw [Nat.zero_add] at pairFailed
  obtain ⟨levels_le, -⟩ :=
    Row.groupOutcome_error pairFailed (notTooDeep maxDepth)
  have unlimited :
      (Row.ofTokens (pair.contents tokens)).reduce Phase.standard maxDepth
          error.levels ≠ .error (.tooDeep maxDepth) := by
    rw [pairFailed]
    simpa using notTooDeep maxDepth
  refine ⟨levels_le, ?_, ?_, notTooDeep, pair, member, level_eq, ?_⟩
  · intro position
    exact (Row.reduce_ne_unmatched balanced pairFailed).1
  · intro position
    exact (Row.reduce_ne_unmatched balanced pairFailed).2
  · rw [parse_eq_error_iff,
      Row.reduce_of_level_le (Nat.zero_le error.levels) unlimited]
    exact pairFailed

/-- The tokens of `b AND ((a = NOT))`. -/
def faultyInnerGroup : List Token :=
  [⟨.identifier, "b", ⟨0, 1⟩⟩, ⟨.and, "AND", ⟨2, 5⟩⟩,
    ⟨.openParen, "(", ⟨6, 7⟩⟩, ⟨.openParen, "(", ⟨7, 8⟩⟩,
    ⟨.identifier, "a", ⟨8, 9⟩⟩, ⟨.comparison .equal, "=", ⟨10, 11⟩⟩,
    ⟨.not, "NOT", ⟨12, 15⟩⟩,
    ⟨.closeParen, ")", ⟨15, 16⟩⟩, ⟨.closeParen, ")", ⟨16, 17⟩⟩]

theorem group_error_located_two_levels :
    parse 2 faultyInnerGroup =
        .error (.inGroup (.inGroup (.unreducedOperand
          (.binary (.comparison .equal)) .right ⟨.not, "NOT", ⟨12, 15⟩⟩))) ∧
      ∃ pair ∈ parenPairs faultyInnerGroup,
        nestingLevel faultyInnerGroup pair.opening + 1 = 2 ∧
        parse 2 (pair.contents faultyInnerGroup) =
          .error (.unreducedOperand (.binary (.comparison .equal)) .right
            ⟨.not, "NOT", ⟨12, 15⟩⟩) := by
  have failed :
      parse 2 faultyInnerGroup =
        .error (.inGroup (.inGroup (.unreducedOperand
          (.binary (.comparison .equal)) .right ⟨.not, "NOT", ⟨12, 15⟩⟩))) := by
    cbv
  obtain ⟨-, -, -, -, located⟩ := group_error_located failed (by decide)
  exact ⟨failed, located⟩

end FilterLang
