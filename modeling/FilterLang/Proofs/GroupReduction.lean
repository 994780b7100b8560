import FilterLang.Proofs.FailedReduction
import FilterLang.Proofs.ParenMatching

/-!
# How groups are reduced

Groups are reduced from the left. At any time the slots before the first opening
parenthesis hold tokens that are none or stand for groups that have been
reduced, and all slots behind it hold the tokens of the beginning. So a
reduction ends in one of three ways, `GroupOutcome`: every group is reduced, an
opening parenthesis is found that matches no other, or the tokens between two
matching parentheses have an error. Between parentheses the outcome is that of
the same tokens on their own, except that the limit may be met sooner.
-/

namespace FilterLang

/-- The slots of a row stand in turn for the parts of a list of tokens. -/
inductive Row.Covers (holds : Slot → List Token → Prop) :
    Row → List Token → Prop
  | nil :
      Covers holds [] []
  | cons
      {slot : Slot}
      {row : Row}
      {part tokens : List Token}
      (first : holds slot part)
      (later : Covers holds row tokens) :
      Covers holds (slot :: row) (part ++ tokens)

namespace Row.Covers

variable {holds : Slot → List Token → Prop} {row : Row} {tokens : List Token}

theorem singleton
    {slot : Slot}
    (first : holds slot tokens) :
    Covers holds [slot] tokens := by
  have covers := Covers.cons first .nil
  rw [List.append_nil] at covers
  exact covers

theorem append
    {front back : Row}
    {frontTokens backTokens : List Token}
    (frontCovers : Covers holds front frontTokens)
    (backCovers : Covers holds back backTokens) :
    Covers holds (front ++ back) (frontTokens ++ backTokens) := by
  induction frontCovers with
  | nil => exact backCovers
  | cons first later hypothesis =>
      rw [List.append_assoc]
      exact .cons first hypothesis

/-- The parts of a row stand for parts of the tokens. -/
theorem divide
    {front back : Row}
    (covers : Covers holds (front ++ back) tokens) :
    ∃ frontTokens backTokens,
      tokens = frontTokens ++ backTokens ∧
      Covers holds front frontTokens ∧
      Covers holds back backTokens := by
  induction front generalizing tokens with
  | nil => exact ⟨[], tokens, rfl, .nil, covers⟩
  | cons slot front hypothesis =>
      cases covers with
      | @cons _ _ part rest first later =>
          obtain ⟨frontTokens, backTokens, rfl, frontCovers, backCovers⟩ :=
            hypothesis later
          exact ⟨part ++ frontTokens, backTokens,
            (List.append_assoc _ _ _).symm, .cons first frontCovers,
            backCovers⟩

/-- What holds of a slot and its part holds wherever the row stands. -/
theorem map
    {other : Slot → List Token → Prop}
    {function : Slot → Slot}
    (covers : Covers holds row tokens)
    (implies : ∀ slot part, holds slot part → other (function slot) part) :
    Covers other (row.map function) tokens := by
  induction covers with
  | nil => exact .nil
  | cons first later hypothesis => exact .cons (implies _ _ first) hypothesis

theorem exists_part
    (covers : Covers holds row tokens)
    {slot : Slot}
    (member : slot ∈ row) :
    ∃ part, holds slot part := by
  induction covers with
  | nil => simp at member
  | @cons head _ part _ first later hypothesis =>
      rcases List.mem_cons.mp member with rfl | inRow
      · exact ⟨part, first⟩
      · exact hypothesis inRow

theorem closed
    (covers : Covers holds row tokens)
    (partsClosed : ∀ slot part, holds slot part → Closed part) :
    Closed tokens := by
  induction covers with
  | nil => exact closed_nil
  | cons first later hypothesis =>
      exact (partsClosed _ _ first).append hypothesis

end Row.Covers

namespace Row

variable {schedule : List Phase} {limit level : Nat}

/-- The parentheses that tokens leave open are those left open by the symbols
of the tokens. -/
theorem openAfter_form
    {inner outer : Nat}
    {tokens : List Token}
    (leaves : LeavesOpen inner tokens outer) :
    openAfter inner (form (ofTokens tokens)) = some outer := by
  induction leaves with
  | nil => rfl
  | opening isOpening later hypothesis =>
      rw [form_ofTokens, List.map_cons,
        Token.symbol_of_kind isOpening (by simp) (by simp), openAfter,
        ← form_ofTokens]
      exact hypothesis
  | closing isClosing later hypothesis =>
      rw [form_ofTokens, List.map_cons,
        Token.symbol_of_kind isClosing (by simp) (by simp), openAfter,
        ← form_ofTokens]
      exact hypothesis
  | other notOpening notClosing later hypothesis =>
      rw [form_ofTokens, List.map_cons,
        openAfter_of_ne (fun mark => ?_) (fun mark => ?_), ← form_ofTokens]
      · exact hypothesis
      · exact notOpening (Token.kind_of_symbol_eq_mark mark)
      · exact notClosing (Token.kind_of_symbol_eq_mark mark)

theorem divideAtClose?_eq_none
    {inner outer : Nat}
    {tokens : List Token}
    (leaves : LeavesOpen inner tokens outer) :
    divideAtClose? inner (ofTokens tokens) = none := by
  have divided := divideAtClose?_append (openAfter_form leaves) []
  rw [List.append_nil] at divided
  exact divided

/-- Tokens are divided at the parenthesis that closes what is open before
them. -/
theorem divideAtClose?_eq_some
    {inner : Nat}
    {contents behind : List Token}
    {closing : Token}
    (leaves : LeavesOpen inner contents 0)
    (isClosing : closing.kind = .closeParen) :
    divideAtClose? inner (ofTokens (contents ++ closing :: behind)) =
      some (ofTokens contents, ofTokens behind) := by
  have notOpening : ¬(Slot.token closing).openParen?.isSome := by
    simp [Slot.openParen?, Slot.token?, isClosing]
  rw [ofTokens, List.map_append, ← ofTokens,
    divideAtClose?_append (openAfter_form leaves), List.map_cons,
    divideAtClose?_cons, if_neg notOpening,
    if_pos (Slot.isCloseParen_iff.mpr ⟨closing, rfl, isClosing⟩)]
  simp [ofTokens]

/-- What the tokens between two matching parentheses come down to. -/
def reduceBetween
    (schedule : List Phase)
    (limit level : Nat)
    (opening : Token)
    (contents : List Token) : Except ParseError Subtree :=
  if contents.isEmpty then
    .error (.emptyGroup opening.position)
  else
    ((ofTokens contents).reduce schedule limit (level + 1)).mapError
      ParseError.outsideGroup

theorem firstGroup?_append
    {done : Row}
    {opening : Token}
    (noParen : ∀ slot ∈ done, slot.openParen? = none)
    (isOpening : opening.kind = .openParen)
    (after : Row) :
    firstGroup? (done ++ .token opening :: after) =
      if after.isEmpty then
        .error (.danglingOpen opening.position)
      else
        match divideAtClose? 0 after with
        | none => .error (.unmatchedOpen opening.position)
        | some (contents, behind) =>
            if contents.isEmpty then
              .error (.emptyGroup opening.position)
            else
              .ok (some ⟨done.reverse, contents, behind⟩) := by
  have selected :
      Focus.first? Slot.openParen? (done ++ .token opening :: after) =
        some ⟨done.reverse, opening, after⟩ := by
    apply Focus.first?_eq_some_iff.mpr
    refine ⟨.token opening,
      Slot.openParen?_eq_some_iff.mpr ⟨rfl, isOpening⟩, ?_, ?_⟩
    · rw [Focus.fill_eq, List.reverse_reverse]
    · simpa using noParen
  rewrite [firstGroup?, selected]
  rfl

/-- A group of tokens gives way to what its contents come down to. -/
theorem reduce_append_group
    {done : Row}
    {opening closing : Token}
    {contents behind : List Token}
    (level_le : level ≤ limit)
    (noParen : ∀ slot ∈ done, slot.openParen? = none)
    (isOpening : opening.kind = .openParen)
    (balanced : Balanced contents)
    (isClosing : closing.kind = .closeParen) :
    reduce schedule limit level
        (done ++ ofTokens (opening :: (contents ++ closing :: behind))) =
      reduceBetween schedule limit level opening contents >>= fun subtree =>
        reduce schedule limit level
          (done ++ .group subtree :: ofTokens behind) := by
  have within : ¬limit < level := Nat.not_lt.mpr level_le
  have found := firstGroup?_append noParen isOpening
    (ofTokens (contents ++ closing :: behind))
  have nonempty :
      (ofTokens (contents ++ closing :: behind)).isEmpty = false := by
    simp [ofTokens]
  rw [nonempty, if_neg Bool.false_ne_true,
    divideAtClose?_eq_some balanced isClosing] at found
  rw [ofTokens, List.map_cons, ← ofTokens]
  cases contents with
  | nil =>
      rw [reduce_of_firstGroup?_error found, if_neg within]
      rfl
  | cons token contents =>
      rw [reduce_of_firstGroup?_some found, if_neg within]
      simp only [Group.fill, Focus.fill_eq, List.reverse_reverse]
      rfl

/-- An opening parenthesis that no token closes ends the reduction. -/
theorem reduce_append_unmatched
    {done : Row}
    {opening : Token}
    {behind : List Token}
    {outer : Nat}
    (level_le : level ≤ limit)
    (noParen : ∀ slot ∈ done, slot.openParen? = none)
    (isOpening : opening.kind = .openParen)
    (leaves : LeavesOpen 0 behind outer) :
    reduce schedule limit level (done ++ ofTokens (opening :: behind)) =
      .error (if behind.isEmpty then
        .danglingOpen opening.position
      else
        .unmatchedOpen opening.position) := by
  have within : ¬limit < level := Nat.not_lt.mpr level_le
  have found := firstGroup?_append noParen isOpening (ofTokens behind)
  rw [divideAtClose?_eq_none leaves] at found
  rw [ofTokens, List.map_cons, ← ofTokens]
  cases behind with
  | nil =>
      rw [reduce_of_firstGroup?_error found, if_neg within]
      rfl
  | cons token behind =>
      rw [reduce_of_firstGroup?_error found, if_neg within]
      rfl

end Row

/-- A slot holds a token that opens no group, or stands for a group that has
been reduced. -/
inductive Slot.Reduced
    (schedule : List Phase)
    (limit level : Nat) : Slot → List Token → Prop
  | token
      {found : Token}
      (notOpening : found.kind ≠ .openParen) :
      Reduced schedule limit level (.token found) [found]
  | group
      {opening closing : Token}
      {contents : List Token}
      {subtree : Subtree}
      (isOpening : opening.kind = .openParen)
      (balanced : Balanced contents)
      (isClosing : closing.kind = .closeParen)
      (reduced : Row.reduceBetween schedule limit level opening contents =
        .ok subtree) :
      Reduced schedule limit level (.group subtree)
        (opening :: (contents ++ [closing]))

theorem Slot.Reduced.closed
    {schedule : List Phase}
    {limit level : Nat}
    {slot : Slot}
    {part : List Token}
    (reduced : slot.Reduced schedule limit level part) :
    Closed part := by
  cases reduced with
  | token notOpening => exact closed_singleton notOpening
  | group isOpening balanced isClosing reduced =>
      exact closed_group isOpening balanced isClosing

/-- How the reduction of a list of tokens ends. -/
inductive GroupOutcome
    (schedule : List Phase)
    (limit level : Nat)
    (tokens : List Token) : Except ParseError Subtree → Prop
  | assembled
      {row : Row}
      {outcome : Except ParseError Subtree}
      (covers : row.Covers (Slot.Reduced schedule limit level) tokens)
      (assembled_eq : row.assemble schedule limit = outcome) :
      GroupOutcome schedule limit level tokens outcome
  | unmatched
      {row : Row}
      {front behind : List Token}
      {opening : Token}
      {outer : Nat}
      (tokens_eq : tokens = front ++ opening :: behind)
      (covers : row.Covers (Slot.Reduced schedule limit level) front)
      (isOpening : opening.kind = .openParen)
      (leaves : LeavesOpen 0 behind outer) :
      GroupOutcome schedule limit level tokens
        (.error (if behind.isEmpty then
          .danglingOpen opening.position
        else
          .unmatchedOpen opening.position))
  | faulty
      {front contents behind : List Token}
      {opening closing : Token}
      {fault : ParseError}
      (tokens_eq : tokens = front ++ opening :: (contents ++ closing :: behind))
      (frontClosed : Closed front)
      (isOpening : opening.kind = .openParen)
      (balanced : Balanced contents)
      (isClosing : closing.kind = .closeParen)
      (failed : Row.reduceBetween schedule limit level opening contents =
        .error fault) :
      GroupOutcome schedule limit level tokens (.error fault)

namespace Row

variable {schedule : List Phase} {limit level : Nat}

theorem Covers.noParen
    {row : Row}
    {tokens : List Token}
    (covers : row.Covers (Slot.Reduced schedule limit level) tokens) :
    ∀ slot ∈ row, slot.openParen? = none := by
  intro slot member
  obtain ⟨part, reduced⟩ := covers.exists_part member
  cases reduced with
  | token notOpening => simp [Slot.openParen?, Slot.token?, notOpening]
  | group => rfl

/-- How the reduction of a row ends whose last slots hold tokens. -/
theorem groupOutcome_append
    (level_le : level ≤ limit)
    {done : Row}
    {front : List Token}
    (covers : done.Covers (Slot.Reduced schedule limit level) front)
    (rest : List Token) :
    GroupOutcome schedule limit level (front ++ rest)
      (reduce schedule limit level (done ++ ofTokens rest)) := by
  have within : ¬limit < level := Nat.not_lt.mpr level_le
  -- On the number of tokens not looked at yet.
  generalize count_eq : rest.length = count
  induction count using Nat.strongRecOn generalizing done front rest with
  | ind count hypothesis =>
      subst count_eq
      cases rest with
      | nil =>
          rw [ofTokens, List.map_nil, List.append_nil, List.append_nil,
            reduce_of_firstGroup?_none
              (firstGroup?_eq_none_iff.mpr covers.noParen),
            if_neg within]
          exact .assembled covers rfl
      | cons token rest =>
          by_cases isOpening : token.kind = .openParen
          · rcases LeavesOpen.total 0 rest with
              ⟨outer, leaves⟩ |
                ⟨contents, behind, closing, rfl, balanced, isClosing⟩
            · rw [reduce_append_unmatched level_le covers.noParen isOpening
                leaves]
              exact .unmatched rfl covers isOpening leaves
            · rw [reduce_append_group level_le covers.noParen isOpening
                balanced isClosing]
              cases between :
                  reduceBetween schedule limit level token contents with
              | error fault =>
                  exact .faulty rfl
                    (covers.closed fun _ _ => Slot.Reduced.closed)
                    isOpening balanced isClosing between
              | ok subtree =>
                  have wider := covers.append (.singleton
                    (.group isOpening balanced isClosing between))
                  have shorter :
                      behind.length <
                        (token :: (contents ++ closing :: behind)).length := by
                    simp only [List.length_cons, List.length_append]
                    omega
                  have outcome :=
                    hypothesis behind.length shorter wider behind rfl
                  rw [ok_bind]
                  simpa using outcome
          · have wider := covers.append (.singleton (.token isOpening))
            have outcome := hypothesis rest.length (Nat.lt_succ_self _) wider
              rest rfl
            simpa [ofTokens] using outcome

/-- How the reduction of a list of tokens ends. -/
theorem groupOutcome
    (level_le : level ≤ limit)
    (tokens : List Token) :
    GroupOutcome schedule limit level tokens
      (reduce schedule limit level (ofTokens tokens)) :=
  groupOutcome_append level_le .nil tokens

/-! ## Groups on their own -/

theorem exhaustAll_group
    (schedule : List Phase)
    (subtree : Subtree) :
    exhaustAll limit schedule [.group subtree] = .ok [.group subtree] := by
  induction schedule with
  | nil => rfl
  | cons phase schedule hypothesis =>
      have ended : phase.step? limit [.group subtree] = none := by
        cases phase with
        | binary ops =>
            simp [Phase.step?_binary_eq_none_iff, Slot.binaryOp?]
        | negation =>
            simp [Phase.step?_negation_eq_none_iff, Slot.negation?, Slot.token?]
      rw [exhaustAll, List.foldlM_cons, Phase.exhaust_of_step?_eq_none ended,
        ok_bind]
      exact hypothesis

theorem reduce_group
    (level_le : level ≤ limit)
    (subtree : Subtree) :
    reduce schedule limit level [.group subtree] = .ok subtree := by
  have noGroup : firstGroup? [.group subtree] = .ok none := by
    simp [firstGroup?_eq_none_iff, Slot.openParen?, Slot.token?]
  have stays : [Slot.group subtree].map Slot.toLeaf = [.group subtree] := rfl
  rw [reduce_of_firstGroup?_none noGroup, if_neg (Nat.not_lt.mpr level_le),
    assemble, stays, ← exhaustAll, exhaustAll_group, ok_bind, single]

/-- A group on its own comes down to what its contents come down to. -/
theorem reduce_ofTokens_group
    {opening closing : Token}
    {contents : List Token}
    (level_le : level ≤ limit)
    (isOpening : opening.kind = .openParen)
    (balanced : Balanced contents)
    (isClosing : closing.kind = .closeParen) :
    reduce schedule limit level
        (ofTokens (opening :: (contents ++ [closing]))) =
      reduceBetween schedule limit level opening contents := by
  have stepped :
      reduce schedule limit level
          ([] ++ ofTokens (opening :: (contents ++ closing :: []))) = _ :=
    reduce_append_group level_le (by simp) isOpening balanced isClosing
  rw [List.nil_append] at stepped
  rw [stepped]
  cases reduceBetween schedule limit level opening contents with
  | error fault => rfl
  | ok subtree => exact reduce_group level_le subtree

/-- Fewer groups around a row change nothing, unless the limit has been met. -/
theorem reduce_of_level_le
    {lower : Nat}
    {row : Row}
    (lower_le : lower ≤ level)
    (notTooDeep : reduce schedule limit level row ≠ .error (.tooDeep limit)) :
    reduce schedule limit lower row = reduce schedule limit level row := by
  fun_induction reduce schedule limit level row generalizing lower with
  | case1 level row tooDeep => exact absurd rfl notTooDeep
  | case2 level row within fault failed =>
      rw [reduce_of_firstGroup?_error failed, if_neg (by omega)]
  | case3 level row within noGroup =>
      rw [reduce_of_firstGroup?_none noGroup, if_neg (by omega)]
  | case4 level row within group found fault failed hypothesis =>
      have inside : reduce schedule limit (lower + 1) group.contents =
          .error fault := by
        rw [← failed]
        apply hypothesis (by omega)
        rw [failed]
        rintro ⟨⟩
        exact notTooDeep rfl
      rw [reduce_of_firstGroup?_some found, if_neg (by omega), inside]
      rfl
  | case5 level row within group found subtree reduced contentsHypothesis
      hypothesis =>
      have inside : reduce schedule limit (lower + 1) group.contents =
          .ok subtree := by
        rw [← reduced]
        apply contentsHypothesis (by omega)
        rw [reduced]
        simp
      rw [reduce_of_firstGroup?_some found, if_neg (by omega), inside]
      exact hypothesis lower_le notTooDeep

/-! ## Errors at parentheses -/

/-- How the reduction of a list of tokens fails, unless the limit is met at
once. -/
theorem groupOutcome_error
    {tokens : List Token}
    {fault : ParseError}
    (failed : reduce schedule limit level (ofTokens tokens) = .error fault)
    (notTooDeep : fault ≠ .tooDeep limit) :
    level ≤ limit ∧
      GroupOutcome schedule limit level tokens (.error fault) := by
  have level_le : level ≤ limit := by
    apply Nat.le_of_not_lt
    intro limit_lt
    rw [reduce_of_limit_lt limit_lt] at failed
    cases failed
    exact notTooDeep rfl
  rw [← failed]
  exact ⟨level_le, groupOutcome level_le tokens⟩

theorem reduceBetween_eq_error
    {opening : Token}
    {contents : List Token}
    {fault : ParseError}
    (failed : reduceBetween schedule limit level opening contents =
      .error fault) :
    (contents = [] ∧ fault = .emptyGroup opening.position) ∨
      ∃ inner, fault = inner.outsideGroup ∧
        reduce schedule limit (level + 1) (ofTokens contents) =
          .error inner := by
  cases contents with
  | nil =>
      cases failed
      exact Or.inl ⟨rfl, rfl⟩
  | cons token contents =>
      rw [reduceBetween, List.isEmpty_cons, if_neg Bool.false_ne_true] at failed
      cases reduced : reduce schedule limit (level + 1)
          (ofTokens (token :: contents)) with
      | error inner =>
          rw [reduced] at failed
          cases failed
          exact Or.inr ⟨inner, rfl, rfl⟩
      | ok subtree =>
          rw [reduced] at failed
          cases failed

theorem outsideGroup_eq_inGroup
    {fault inner : ParseError}
    (wrapped : fault.outsideGroup = .inGroup inner) :
    fault = inner ∧ ∀ other, inner ≠ .tooDeep other := by
  cases fault <;> cases wrapped <;> simp

end Row
end FilterLang
