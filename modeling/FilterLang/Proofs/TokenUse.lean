import FilterLang.Proofs.FailedReduction
import FilterLang.Proofs.StepwiseReduction

/-!
# Reductions use up tokens

Every group and every operator that is reduced takes tokens out of its row, and
nothing ever puts a token into one. A stage is over when the row has no token of
its kinds, so such tokens are gone for good. Where all operators have been
reduced, only closing parentheses can be left.
-/

namespace FilterLang

/-! ## The tokens of a row -/

namespace Slot

theorem openParen?_eq_none_iff
    {slot : Slot} :
    slot.openParen? = none ↔
      ∀ found ∈ slot.token?, found.kind ≠ .openParen := by
  simp [openParen?, Option.filter_eq_none_iff]

theorem negation?_eq_none_iff
    {slot : Slot} :
    slot.negation? = none ↔ ∀ found ∈ slot.token?, found.kind ≠ .not := by
  simp [negation?, Option.filter_eq_none_iff]

theorem binaryOp?_eq_none_iff
    {ops : List BinaryOp}
    {slot : Slot} :
    slot.binaryOp? ops = none ↔
      ∀ found ∈ slot.token?, ∀ op ∈ ops,
        found.kind ≠ .operator (.binary op) := by
  rw [Option.eq_none_iff_forall_ne_some]
  cases slot with
  | token found => simp [binaryOp?_eq_some_iff, token?]
  | node subtree => simp [binaryOp?_eq_some_iff, token?]
  | group subtree => simp [binaryOp?_eq_some_iff, token?]

end Slot

namespace Row

/-- The tokens that are left in a row, left to right. -/
def tokens (row : Row) : List Token :=
  row.filterMap Slot.token?

/-- There is no token of a kind in a row. -/
def Lacks
    (row : Row)
    (kind : TokenKind) : Prop :=
  ∀ found ∈ row.tokens, found.kind ≠ kind

/-- What comes after a row has fewer tokens than the row, and no others. -/
def UsesUp (row next : Row) : Prop :=
  next.tokens.Sublist row.tokens ∧ next.tokens.length < row.tokens.length

variable {kind : TokenKind} {row next : Row}

@[simp] theorem tokens_append (front back : Row) :
    tokens (front ++ back) = front.tokens ++ back.tokens :=
  List.filterMap_append

@[simp] theorem tokens_cons_token (found : Token) (row : Row) :
    tokens (.token found :: row) = found :: row.tokens := rfl

@[simp] theorem tokens_cons_node (subtree : Subtree) (row : Row) :
    tokens (.node subtree :: row) = row.tokens := rfl

@[simp] theorem tokens_cons_group (subtree : Subtree) (row : Row) :
    tokens (.group subtree :: row) = row.tokens := rfl

theorem tokens_cons_of_operand
    {operator : Operator}
    {side : Side}
    {slot : Slot}
    {subtree : Subtree}
    (taken : slot.operand operator side = .ok subtree)
    (row : Row) :
    tokens (slot :: row) = row.tokens :=
  List.filterMap_cons_none (Slot.token?_of_operand taken)

theorem length_tokens (row : Row) :
    row.tokens.length = row.tokenCount := by
  induction row with
  | nil => rfl
  | cons slot row hypothesis =>
      cases slot with
      | token found => simp [hypothesis, Nat.add_comm]
      | node subtree => simp [hypothesis]
      | group subtree => simp [hypothesis]

theorem lacks_iff :
    row.Lacks kind ↔
      ∀ slot ∈ row, ∀ found ∈ slot.token?, found.kind ≠ kind := by
  simp only [Lacks, tokens, List.mem_filterMap]
  constructor
  · intro lacks slot member found holds
    exact lacks found ⟨slot, member, holds⟩
  · rintro lacks found ⟨slot, member, holds⟩
    exact lacks slot member found holds

theorem Lacks.sublist
    (lacks : row.Lacks kind)
    (fewer : next.tokens.Sublist row.tokens) :
    next.Lacks kind :=
  fun found member => lacks found (fewer.subset member)

/-! ## Groups and leaves -/

variable {group : Group}

/-- The contents of a group are a shorter part of the row. -/
theorem contents_shorter
    (found : row.firstGroup? = .ok (some group)) :
    group.contents.Sublist row ∧ group.contents.length < row.length := by
  obtain ⟨opening, closing, -, -, rfl, -⟩ := firstGroup?_eq_some_iff.mp found
  have parts :
      Focus.fill group.before (.token opening)
          (group.contents ++ .token closing :: group.after) =
        (group.before.reverse ++ [.token opening]) ++ group.contents ++
          (.token closing :: group.after) := by
    simp [Focus.fill_eq]
  rw [parts]
  constructor
  · exact (List.sublist_append_right _ _).trans (List.sublist_append_left _ _)
  · simp only [List.length_append, List.length_cons]
    omega

/-- A subexpression in the place of a group uses up the parentheses and the
tokens between them. -/
theorem usesUp_fill
    (found : row.firstGroup? = .ok (some group))
    (subtree : Subtree) :
    row.UsesUp (group.fill subtree) := by
  have fewer := tokenCount_fill_group found subtree
  rw [← length_tokens, ← length_tokens] at fewer
  refine ⟨?_, fewer⟩
  obtain ⟨opening, closing, -, -, rfl, -⟩ := firstGroup?_eq_some_iff.mp found
  simp only [Group.fill, Focus.fill_eq, tokens_append, tokens_cons_group,
    tokens_cons_token]
  refine List.Sublist.append_left (.cons _ ?_) _
  exact (List.sublist_cons_self _ _).trans (List.sublist_append_right _ _)

theorem firstGroup?_eq_none_iff_lacks :
    row.firstGroup? = .ok none ↔ row.Lacks .openParen := by
  simp only [firstGroup?_eq_none_iff, Slot.openParen?_eq_none_iff, lacks_iff]

/-- Making leaves uses up the names and the values. -/
theorem tokens_map_toLeaf (row : Row) :
    tokens (row.map Slot.toLeaf) =
      row.tokens.filter fun found =>
        found.kind ≠ .identifier ∧ found.kind ≠ .literal := by
  induction row with
  | nil => rfl
  | cons slot row hypothesis =>
      rw [List.map_cons]
      cases slot with
      | node subtree => simpa [Slot.toLeaf] using hypothesis
      | group subtree => simpa [Slot.toLeaf] using hypothesis
      | token found =>
          obtain ⟨kind, text, span⟩ := found
          cases kind <;> simpa [Slot.toLeaf] using hypothesis

end Row

/-! ## Operators -/

namespace Phase

variable {limit : Nat} {phase : Phase} {row next : Row}

/-- A phase uses up an operator with every step. -/
theorem usesUp_of_step?
    (stepped : phase.step? limit row = some (.ok next)) :
    row.UsesUp next := by
  have fewer := tokenCount_of_step? stepped
  rw [← Row.length_tokens, ← Row.length_tokens] at fewer
  refine ⟨?_, fewer⟩
  rcases step?_eq_some_ok_iff.mp stepped with
    ⟨_, _, _, leftTaken, rightTaken, _⟩ | ⟨_, _, taken, _⟩
  · simp [Row.tokens_cons_of_operand leftTaken,
      Row.tokens_cons_of_operand rightTaken]
  · simp [Row.tokens_cons_of_operand taken]

/-- A phase is over when none of its operators is left. -/
theorem step?_eq_none_iff :
    phase.step? limit row = none ↔
      ∀ operator ∈ phase.operators, row.Lacks (.operator operator) := by
  cases phase with
  | binary ops =>
      simp only [step?_binary_eq_none_iff, Slot.binaryOp?_eq_none_iff,
        operators, List.forall_mem_map, Row.lacks_iff]
      constructor
      · intro unused op member slot slotMember found holds
        exact unused slot slotMember found holds op member
      · intro lacks slot slotMember found holds op member
        exact lacks op member slot slotMember found holds
  | negation =>
      simp only [step?_negation_eq_none_iff, Slot.negation?_eq_none_iff,
        operators, List.forall_mem_singleton, Row.lacks_iff]

/-- The operators of the standard schedule are all operators. -/
theorem exists_mem_standard (operator : Operator) :
    ∃ phase ∈ standard, operator ∈ phase.operators := by
  cases operator with
  | not => exact ⟨.negation, by decide, by decide⟩
  | binary op =>
      refine ⟨.binary [op], ?_, by simp [operators]⟩
      cases op with
      | comparison kind => cases kind <;> decide
      | and => decide
      | or => decide

end Phase

/-! ## Stages -/

/-- The tokens that a stage does not find in its row any more: opening
parentheses behind the groups, names and values behind the leaves, and the
operators of every phase behind that phase. -/
def Stage.Cleared
    (schedule : List Phase)
    (row : Row) : Stage → Prop
  | .groups => True
  | .leaves => row.Lacks .openParen
  | .phases remaining =>
      row.Lacks .openParen ∧ row.Lacks .identifier ∧ row.Lacks .literal ∧
        ∃ ended, schedule = ended ++ remaining ∧
          ∀ phase ∈ ended, ∀ operator ∈ phase.operators,
            row.Lacks (.operator operator)

namespace Reduction

variable {schedule : List Phase} {limit : Nat} {reduction next : Reduction}

/-- Tokens that a stage has cleared away do not come back. -/
theorem Steps.cleared
    (cleared : reduction.stage.Cleared schedule reduction.row)
    (steps : Steps schedule limit reduction next) :
    next.stage.Cleared schedule next.row := by
  cases steps with
  | enter => trivial
  | grouped within noGroup =>
      exact Row.firstGroup?_eq_none_iff_lacks.mp noGroup
  | @leaves waiting level row =>
      have leafTokens := row.tokens_map_toLeaf
      refine ⟨?_, ?_, ?_, [], rfl, by simp⟩
      · refine Row.Lacks.sublist cleared ?_
        rw [leafTokens]
        exact List.filter_sublist
      · intro found member
        rw [leafTokens, List.mem_filter, decide_eq_true_iff] at member
        exact member.2.1
      · intro found member
        rw [leafTokens, List.mem_filter, decide_eq_true_iff] at member
        exact member.2.2
  | operator reduced =>
      obtain ⟨fewer, -⟩ := Phase.usesUp_of_step? reduced
      obtain ⟨noOpening, noName, noValue, ended, schedule_eq, used⟩ := cleared
      refine ⟨noOpening.sublist fewer, noName.sublist fewer,
        noValue.sublist fewer, ended, schedule_eq, ?_⟩
      intro phase phaseEnded operator member
      exact (used phase phaseEnded operator member).sublist fewer
  | @phase waiting level row phase remaining noneLeft =>
      obtain ⟨noOpening, noName, noValue, ended, schedule_eq, used⟩ := cleared
      refine ⟨noOpening, noName, noValue, ended ++ [phase], ?_, ?_⟩
      · rw [schedule_eq, List.append_assoc, List.singleton_append]
      · intro other otherEnded
        rcases List.mem_append.mp otherEnded with before | last
        · exact used other before
        · obtain rfl := List.mem_singleton.mp last
          exact Phase.step?_eq_none_iff.mp noneLeft
  | leave => trivial

theorem cleared_of_leadsTo
    {level : Nat}
    {row : Row}
    (leads : LeadsTo schedule limit (start level row) reduction) :
    reduction.stage.Cleared schedule reduction.row :=
  leads.preserves (fun _ _ holds steps => Steps.cleared holds steps) trivial

end Reduction

/-- Behind all phases of the standard schedule, the only tokens that can be left
are closing parentheses. -/
theorem Stage.Cleared.kind_eq_closeParen
    {row : Row}
    {found : Token}
    (cleared : Cleared Phase.standard row (.phases []))
    (member : found ∈ row.tokens) :
    found.kind = .closeParen := by
  obtain ⟨noOpening, noName, noValue, ended, schedule_eq, used⟩ := cleared
  rw [List.append_nil] at schedule_eq
  subst schedule_eq
  cases kind_eq : found.kind with
  | operator operator =>
      obtain ⟨phase, phaseEnded, isItsOperator⟩ :=
        Phase.exists_mem_standard operator
      have lacks := used phase phaseEnded operator isItsOperator
      exact absurd kind_eq (lacks found member)
  | identifier => exact absurd kind_eq (noName found member)
  | literal => exact absurd kind_eq (noValue found member)
  | openParen => exact absurd kind_eq (noOpening found member)
  | closeParen => rfl

/-- Every loop of a reduction uses up tokens of its row, and so comes to an end.
A group gives way to the subexpression that its contents, a shorter row, are
reduced to, and an operator and its operands to theirs; either leaves fewer
tokens than there were, and no others. At every point of the run the tokens are
gone that the stages before it are there for, and behind the last of them only
closing parentheses can be left. The run ends with what the row is reduced
to. -/
theorem reduction_uses_up_tokens
    (limit level : Nat)
    (row : Row) :
    (∀ group, row.firstGroup? = .ok (some group) →
      group.contents.Sublist row ∧
      group.contents.length < row.length ∧
      ∀ subtree,
        group.contents.reduce Phase.standard limit (level + 1) =
          .ok subtree →
        row.UsesUp (group.fill subtree) ∧
        ∀ waiting,
          Reduction.LeadsTo Phase.standard limit
            ⟨waiting, level, row, .groups⟩
            ⟨waiting, level, group.fill subtree, .groups⟩) ∧
    (∀ (phase : Phase) (next : Row),
      phase.step? limit row = some (.ok next) → row.UsesUp next) ∧
    (∀ reduction,
      Reduction.LeadsTo Phase.standard limit (.start level row) reduction →
      reduction.stage.Cleared Phase.standard reduction.row ∧
      (reduction.stage = .phases [] →
        ∀ found ∈ reduction.row.tokens, found.kind = .closeParen)) ∧
    ∃ last,
      Reduction.LeadsTo Phase.standard limit (.start level row) last ∧
      last.step Phase.standard limit =
        .ended (row.reduce Phase.standard limit level) := by
  refine ⟨?_, fun phase next => Phase.usesUp_of_step?, ?_,
    Reduction.start_leads_to_end Phase.standard limit level row⟩
  · intro group found
    obtain ⟨part, shorter⟩ := Row.contents_shorter found
    refine ⟨part, shorter, ?_⟩
    intro subtree reduced
    exact ⟨Row.usesUp_fill found subtree,
      Reduction.leads_to_fill found reduced⟩
  · intro reduction leads
    have cleared := Reduction.cleared_of_leadsTo leads
    refine ⟨cleared, ?_⟩
    intro isLast found member
    rw [isLast] at cleared
    exact cleared.kind_eq_closeParen member

end FilterLang
