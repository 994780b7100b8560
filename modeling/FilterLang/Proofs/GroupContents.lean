import FilterLang.Proofs.DepthLimit
import FilterLang.Proofs.UnmatchedParens

/-!
# The contents of a group

Nothing outside a group depends on more of its contents than the subexpression
that they come down to. So contents with one subexpression can take each other's
place among any tokens, and a group on its own has the outcome of its contents.
Only the limit may tell contents apart, for it counts the groups around them.
-/

namespace FilterLang

variable {α β : Type}

/-! ## Outcomes that only the limit tells apart -/

/-- Two outcomes are the same, unless the limit has cut off one of them. -/
inductive SameUnlessTooDeep (limit : Nat) :
    Except ParseError α → Except ParseError α → Prop
  | same
      (outcome : Except ParseError α) :
      SameUnlessTooDeep limit outcome outcome
  | left
      (other : Except ParseError α) :
      SameUnlessTooDeep limit (.error (.tooDeep limit)) other
  | right
      (outcome : Except ParseError α) :
      SameUnlessTooDeep limit outcome (.error (.tooDeep limit))

namespace SameUnlessTooDeep

variable {limit : Nat} {outcome other : Except ParseError α}

theorem bind
    {next otherNext : α → Except ParseError β}
    (outcomes : SameUnlessTooDeep limit outcome other)
    (nexts : ∀ value, SameUnlessTooDeep limit (next value) (otherNext value)) :
    SameUnlessTooDeep limit (outcome >>= next) (other >>= otherNext) := by
  cases outcomes with
  | same =>
      cases outcome with
      | error fault => exact .same _
      | ok value => exact nexts value
  | left => exact .left _
  | right => exact .right _

theorem outsideGroup (outcomes : SameUnlessTooDeep limit outcome other) :
    SameUnlessTooDeep limit (outcome.mapError ParseError.outsideGroup)
      (other.mapError ParseError.outsideGroup) := by
  cases outcomes with
  | same => exact .same _
  | left => exact .left _
  | right => exact .right _

/-- Two outcomes that are one value, unless the limit has cut them off. -/
theorem of_ok
    {value : α}
    (outcomes : SameUnlessTooDeep limit outcome (.ok value))
    (others : SameUnlessTooDeep limit other (.ok value)) :
    SameUnlessTooDeep limit outcome other := by
  cases outcomes with
  | left => exact .left _
  | same =>
      cases others with
      | left => exact .right _
      | same => exact .same _

end SameUnlessTooDeep

/-! ## Contents that take each other's place -/

/-- Whether tokens around a group close what is open before them does not depend
on the contents of the group: a token in front of the group closes it, or none
does, or a token behind the group. -/
theorem LeavesOpen.total_around_group
    {opening closing : Token}
    (isOpening : opening.kind = .openParen)
    (isClosing : closing.kind = .closeParen)
    (front back : List Token) :
    (∃ (inside behind : List Token) (last : Token),
      front = inside ++ last :: behind ∧
      Balanced inside ∧
      last.kind = .closeParen) ∨
    (∃ outer, ∀ contents, Balanced contents →
      LeavesOpen 0 (front ++ opening :: (contents ++ closing :: back)) outer) ∨
    ∃ (inside behind : List Token) (last : Token),
      back = inside ++ last :: behind ∧
      last.kind = .closeParen ∧
      ∀ contents, Balanced contents →
        Balanced (front ++ opening :: (contents ++ closing :: inside)) := by
  rcases LeavesOpen.total 0 front with
    ⟨middle, frontLeaves⟩ | ⟨inside, behind, last, front_eq, balanced, isLast⟩
  · rcases LeavesOpen.total middle back with
      ⟨outer, backLeaves⟩ | ⟨inside, behind, last, back_eq, leaves, isLast⟩
    · refine Or.inr (Or.inl ⟨outer, fun contents balanced => ?_⟩)
      exact frontLeaves.append (.group isOpening balanced isClosing backLeaves)
    · refine Or.inr (Or.inr ⟨inside, behind, last, back_eq, isLast, ?_⟩)
      intro contents balanced
      exact frontLeaves.append (.group isOpening balanced isClosing leaves)
  · exact Or.inl ⟨inside, behind, last, front_eq, balanced, isLast⟩

namespace Row

variable {schedule : List Phase} {limit : Nat} {opening closing : Token}
  {contents other : List Token}

theorem reduceBetween_of_ne_nil
    {level : Nat}
    (nonempty : contents ≠ []) :
    reduceBetween schedule limit level opening contents =
      ((ofTokens contents).reduce schedule limit (level + 1)).mapError
        ParseError.outsideGroup := by
  rw [reduceBetween, if_neg (mt List.isEmpty_iff.mp nonempty)]

/-- Under any number of groups, contents come down to what they come down to
under none, unless the limit cuts them off. -/
theorem reduceBetween_eq_or
    (nonempty : contents ≠ [])
    (level : Nat)
    (opening : Token) :
    reduceBetween schedule limit level opening contents =
        .error (.tooDeep limit) ∨
      reduceBetween schedule limit level opening contents =
        ((ofTokens contents).reduce schedule limit 0).mapError
          ParseError.outsideGroup := by
  rw [reduceBetween_of_ne_nil nonempty]
  by_cases cutOff : (ofTokens contents).reduce schedule limit (level + 1) =
      .error (.tooDeep limit)
  · left
    rw [cutOff]
    rfl
  · right
    rw [reduce_of_level_le (Nat.zero_le _) cutOff]

/-- If the contents of two groups come down to the same, wherever they stand,
then so do the tokens with the one group and the tokens with the other. -/
theorem reduce_around_group
    (isOpening : opening.kind = .openParen)
    (isClosing : closing.kind = .closeParen)
    (balanced : Balanced contents)
    (otherBalanced : Balanced other)
    (agree : ∀ level, SameUnlessTooDeep limit
      (reduceBetween schedule limit level opening contents)
      (reduceBetween schedule limit level opening other))
    (level : Nat)
    {done : Row}
    (noParen : ∀ slot ∈ done, slot.openParen? = none)
    (front back : List Token) :
    SameUnlessTooDeep limit
      (reduce schedule limit level
        (done ++ ofTokens (front ++ opening :: (contents ++ closing :: back))))
      (reduce schedule limit level
        (done ++ ofTokens (front ++ opening :: (other ++ closing :: back)))) := by
  -- On the number of tokens around the group: those in front of it are looked
  -- at one after another, until one opens a group around it.
  generalize count_eq : front.length + back.length = count
  induction count using Nat.strongRecOn
      generalizing level done front back with
  | ind count hypothesis =>
      subst count_eq
      by_cases level_le : level ≤ limit
      case neg =>
        rw [reduce_of_limit_lt (Nat.lt_of_not_le level_le)]
        exact .left _
      cases front with
      | nil =>
          rw [List.nil_append, List.nil_append,
            reduce_append_group level_le noParen isOpening balanced isClosing,
            reduce_append_group level_le noParen isOpening otherBalanced
              isClosing]
          exact (agree level).bind fun _ => .same _
      | cons token front =>
          by_cases opensGroup : token.kind = .openParen
          case neg =>
            have passed : ∀ slot ∈ done ++ [.token token],
                slot.openParen? = none := by
              simpa [or_imp, forall_and, Slot.openParen?, Slot.token?,
                opensGroup] using noParen
            have later := hypothesis _ (by simp) level passed front back rfl
            simpa [ofTokens] using later
          rcases LeavesOpen.total_around_group isOpening isClosing front back
            with
            ⟨inside, behind, last, rfl, insideBalanced, isLast⟩ |
            ⟨outer, leaves⟩ |
            ⟨inside, behind, last, rfl, isLast, aroundBalanced⟩
          · -- The token opens a group in front of the one in question.
            simp only [List.cons_append, List.append_assoc]
            rw [reduce_append_group level_le noParen opensGroup insideBalanced
                isLast,
              reduce_append_group level_le noParen opensGroup insideBalanced
                isLast]
            refine (SameUnlessTooDeep.same _).bind fun subtree => ?_
            have passed : ∀ slot ∈ done ++ [.group subtree],
                slot.openParen? = none := by
              simpa [or_imp, forall_and, Slot.openParen?, Slot.token?]
                using noParen
            have fewer : behind.length + back.length <
                (token :: (inside ++ last :: behind)).length + back.length := by
              simp only [List.length_cons, List.length_append]
              omega
            have later := hypothesis _ fewer level passed behind back rfl
            simpa using later
          · -- No token closes what the token opens.
            rw [List.cons_append, List.cons_append,
              reduce_append_unmatched level_le noParen opensGroup
                (leaves contents balanced),
              reduce_append_unmatched level_le noParen opensGroup
                (leaves other otherBalanced)]
            have nonempty (middle : List Token) :
                (front ++ opening :: (middle ++ closing :: back)).isEmpty =
                  false := by
              simp
            rw [nonempty, nonempty]
            exact .same _
          · -- The token opens a group around the one in question.
            have around (middle : List Token) :
                token :: front ++
                    opening :: (middle ++ closing :: (inside ++ last :: behind)) =
                  token :: (front ++ opening :: (middle ++ closing :: inside) ++
                    last :: behind) := by
              simp
            rw [around, around,
              reduce_append_group level_le noParen opensGroup
                (aroundBalanced contents balanced) isLast,
              reduce_append_group level_le noParen opensGroup
                (aroundBalanced other otherBalanced) isLast,
              reduceBetween_of_ne_nil (by simp),
              reduceBetween_of_ne_nil (by simp)]
            have fewer : front.length + inside.length <
                (token :: front).length + (inside ++ last :: behind).length := by
              simp only [List.length_cons, List.length_append]
              omega
            have noSlot : ∀ slot ∈ ([] : Row), slot.openParen? = none := by simp
            have inner := hypothesis _ fewer (level + 1) noSlot front inside rfl
            exact inner.outsideGroup.bind fun _ => .same _

/-- An error about the limit tells the limit itself. -/
theorem eq_limit_of_reduce
    {level told : Nat}
    {tokens : List Token}
    (failed : reduce schedule limit level (ofTokens tokens) =
      .error (.tooDeep told)) :
    told = limit := by
  obtain ⟨threshold, -, outcome, unlimited, -, above, below⟩ :=
    hasThreshold_reduce schedule level (room_ofTokens tokens)
  rcases Nat.lt_or_ge limit threshold with less | enough
  · cases failed.symm.trans (below limit less)
    rfl
  · have reached := (above limit enough).symm.trans failed
    exact absurd List.mem_cons_self (unlimited _ reached told)

end Row

/-! ## Tokens that parse -/

theorem LeavesOpen.leaf
    {inner outer : Nat}
    {token : Token}
    {tokens : List Token}
    {leaf : Expr}
    (stands : token.leaf? = some leaf)
    (later : LeavesOpen inner tokens outer) :
    LeavesOpen inner (token :: tokens) outer := by
  refine .other ?_ ?_ later
  · intro isOpening
    simp [Token.leaf?, isOpening] at stands
  · intro isClosing
    simp [Token.leaf?, isClosing] at stands

theorem LeavesOpen.operator
    {inner outer : Nat}
    {token : Token}
    {tokens : List Token}
    {operator : Operator}
    (isOperator : token.kind = .operator operator)
    (later : LeavesOpen inner tokens outer) :
    LeavesOpen inner (token :: tokens) outer :=
  .other (by simp [isOperator]) (by simp [isOperator]) later

/-- Tokens that stand for an expression are balanced. -/
theorem Derives.balanced
    {level : Level}
    {tokens : List Token}
    {tree : Expr}
    {nesting : Nat}
    (derived : Derives level tokens tree nesting) :
    Balanced tokens := by
  induction derived with
  | operand isLeaf => exact .leaf isLeaf .nil
  | comparison leftLeaf isOperator rightLeaf =>
      exact .leaf leftLeaf (.operator isOperator (.leaf rightLeaf .nil))
  | group isOpening derived isClosing hypothesis =>
      exact .group isOpening hypothesis isClosing .nil
  | notOfComparison derived hypothesis => exact hypothesis
  | not isOperator derived hypothesis => exact .operator isOperator hypothesis
  | andOfNot derived hypothesis => exact hypothesis
  | and leftDerived isOperator rightDerived leftHypothesis rightHypothesis =>
      exact leftHypothesis.append (.operator isOperator rightHypothesis)
  | orOfAnd derived hypothesis => exact hypothesis
  | or leftDerived isOperator rightDerived leftHypothesis rightHypothesis =>
      exact leftHypothesis.append (.operator isOperator rightHypothesis)

namespace Row

variable {maxDepth : Nat} {contents : List Token} {tree : Expr}

/-- Tokens that parse come down to their expression and its own depth. -/
theorem reduce_of_parse (parsed : parse maxDepth contents = .ok tree) :
    reduce Phase.standard maxDepth 0 (ofTokens contents) =
      .ok ⟨tree, tree.depth⟩ := by
  obtain ⟨⟨nesting, nesting_le, derived⟩, depth_le⟩ :=
    (parse_eq_ok_iff maxDepth contents tree).mp parsed
  have standsFor := derived.standsFor.mono nesting_le
  rw [← form_ofTokens] at standsFor
  exact (reduce_eq_ok_iff Comparison.standard_covers
    (fresh_ofTokens maxDepth contents)).mpr
      ⟨Nat.zero_le maxDepth, ⟨rfl, depth_le⟩, standsFor⟩

/-- Between parentheses, under any number of groups, tokens come down to what
they parse to. -/
theorem reduceBetween_of_parse
    (parsed : parse maxDepth contents = .ok tree)
    (level : Nat)
    (opening : Token) :
    SameUnlessTooDeep maxDepth
      (reduceBetween Phase.standard maxDepth level opening contents)
      (.ok ⟨tree, tree.depth⟩) := by
  obtain ⟨⟨nesting, -, derived⟩, -⟩ :=
    (parse_eq_ok_iff maxDepth contents tree).mp parsed
  rcases reduceBetween_eq_or derived.ne_nil level opening with
    cutOff | contents_eq
  · rw [cutOff]
    exact .left _
  · rw [contents_eq, reduce_of_parse parsed]
    exact .same _

end Row

section

variable {maxDepth : Nat} {contents other : List Token}
  {opening closing : Token} {tree : Expr}

theorem balanced_of_parse (parsed : parse maxDepth contents = .ok tree) :
    Balanced contents := by
  obtain ⟨⟨nesting, -, derived⟩, -⟩ :=
    (parse_eq_ok_iff maxDepth contents tree).mp parsed
  exact derived.balanced

/-- Contents that parse to one expression can take each other's place. -/
theorem parse_around_group
    (isOpening : opening.kind = .openParen)
    (isClosing : closing.kind = .closeParen)
    (parsed : parse maxDepth contents = .ok tree)
    (otherParsed : parse maxDepth other = .ok tree)
    (front back : List Token) :
    SameUnlessTooDeep maxDepth
      (parse maxDepth (front ++ opening :: (contents ++ closing :: back)))
      (parse maxDepth (front ++ opening :: (other ++ closing :: back))) := by
  have agree (level : Nat) :
      SameUnlessTooDeep maxDepth
        (Row.reduceBetween Phase.standard maxDepth level opening contents)
        (Row.reduceBetween Phase.standard maxDepth level opening other) :=
    (Row.reduceBetween_of_parse parsed level opening).of_ok
      (Row.reduceBetween_of_parse otherParsed level opening)
  have noSlot : ∀ slot ∈ ([] : Row), slot.openParen? = none := by simp
  have reduced := Row.reduce_around_group isOpening isClosing
    (balanced_of_parse parsed) (balanced_of_parse otherParsed) agree 0 noSlot
    front back
  exact reduced.bind fun _ => .same _

/-- A group on its own has the outcome of its contents, with an error told from
inside the group, unless the limit does not allow for the group. -/
theorem parse_group_eq
    (isOpening : opening.kind = .openParen)
    (isClosing : closing.kind = .closeParen)
    (nonempty : contents ≠ [])
    (balanced : Balanced contents) :
    parse maxDepth (opening :: (contents ++ [closing])) =
        .error (.tooDeep maxDepth) ∨
      parse maxDepth (opening :: (contents ++ [closing])) =
        (parse maxDepth contents).mapError .inGroup := by
  rw [parse_group isOpening balanced isClosing]
  rcases Row.reduceBetween_eq_or nonempty 0 opening with cutOff | contents_eq
  · left
    rw [cutOff]
    rfl
  · rw [contents_eq, parse, parseBy]
    cases reduced : Row.reduce Phase.standard maxDepth 0
        (Row.ofTokens contents) with
    | ok subtree => exact Or.inr rfl
    | error fault =>
        by_cases isTooDeep : ∃ told, fault = .tooDeep told
        · obtain ⟨told, rfl⟩ := isTooDeep
          obtain rfl := Row.eq_limit_of_reduce reduced
          exact Or.inl rfl
        · have wrapped := ParseError.outsideGroup_of_ne_tooDeep
            (not_exists.mp isTooDeep)
          exact Or.inr (congrArg Except.error wrapped)

/-- Groups are compositional. Among any tokens, contents that parse to one
expression can take each other's place, with the same outcome, error or not. A
group of balanced tokens on its own has the outcome of its contents, with an
error told from inside the group. Only the limit may cut off an outcome where it
does not cut off the other. -/
theorem groups_are_compositional
    (maxDepth : Nat)
    (isOpening : opening.kind = .openParen)
    (isClosing : closing.kind = .closeParen) :
    (∀ (front back contents other : List Token) (tree : Expr),
      parse maxDepth contents = .ok tree →
      parse maxDepth other = .ok tree →
      SameUnlessTooDeep maxDepth
        (parse maxDepth (front ++ opening :: (contents ++ closing :: back)))
        (parse maxDepth (front ++ opening :: (other ++ closing :: back)))) ∧
    ∀ contents : List Token, contents ≠ [] → Balanced contents →
      parse maxDepth (opening :: (contents ++ [closing])) =
          .error (.tooDeep maxDepth) ∨
        (∃ tree, parse maxDepth contents = .ok tree ∧
          parse maxDepth (opening :: (contents ++ [closing])) = .ok tree) ∨
        ∃ error, parse maxDepth contents = .error error ∧
          parse maxDepth (opening :: (contents ++ [closing])) =
            .error (.inGroup error) := by
  refine ⟨?_, ?_⟩
  · intro front back contents other tree parsed otherParsed
    exact parse_around_group isOpening isClosing parsed otherParsed front back
  · intro contents nonempty balanced
    rcases parse_group_eq isOpening isClosing nonempty balanced with
      cutOff | group_eq
    · exact Or.inl cutOff
    · right
      cases parsed : parse maxDepth contents with
      | ok tree =>
          rw [parsed] at group_eq
          exact Or.inl ⟨tree, rfl, group_eq⟩
      | error error =>
          rw [parsed] at group_eq
          exact Or.inr ⟨error, rfl, group_eq⟩

end

/-- The tokens of `a = 1`. -/
def barePair : List Token :=
  [⟨.identifier, "a", ⟨0, 1⟩⟩, ⟨.comparison .equal, "=", ⟨2, 3⟩⟩,
    ⟨.literal, "1", ⟨4, 5⟩⟩]

/-- The tokens of `((a = 1))`. -/
def parenthesizedPair : List Token :=
  [⟨.openParen, "(", ⟨0, 1⟩⟩, ⟨.openParen, "(", ⟨1, 2⟩⟩,
    ⟨.identifier, "a", ⟨2, 3⟩⟩, ⟨.comparison .equal, "=", ⟨4, 5⟩⟩,
    ⟨.literal, "1", ⟨6, 7⟩⟩, ⟨.closeParen, ")", ⟨7, 8⟩⟩,
    ⟨.closeParen, ")", ⟨8, 9⟩⟩]

/-- The tokens of `NOT (b AND (` and of `)))`, whose last parenthesis matches
none, with tokens between them. -/
def inNegation (contents : List Token) : List Token :=
  [⟨.not, "NOT", ⟨0, 3⟩⟩, ⟨.openParen, "(", ⟨4, 5⟩⟩,
      ⟨.identifier, "b", ⟨5, 6⟩⟩, ⟨.and, "AND", ⟨7, 10⟩⟩] ++
    ⟨.openParen, "(", ⟨11, 12⟩⟩ :: (contents ++ ⟨.closeParen, ")", ⟨21, 22⟩⟩ ::
      [⟨.closeParen, ")", ⟨22, 23⟩⟩, ⟨.closeParen, ")", ⟨23, 24⟩⟩])

theorem groups_are_compositional_in_negation :
    parse 4 barePair =
        .ok (.binary (.comparison .equal) (.identifier "a") (.literal "1")) ∧
      parse 4 parenthesizedPair =
        .ok (.binary (.comparison .equal) (.identifier "a") (.literal "1")) ∧
      SameUnlessTooDeep 4 (parse 4 (inNegation barePair))
        (parse 4 (inNegation parenthesizedPair)) ∧
      barePair ≠ [] ∧ Balanced barePair ∧
      (parse 4 (⟨.openParen, "(", ⟨11, 12⟩⟩ ::
            (barePair ++ [⟨.closeParen, ")", ⟨21, 22⟩⟩])) =
          .error (.tooDeep 4) ∨
        (∃ tree, parse 4 barePair = .ok tree ∧
          parse 4 (⟨.openParen, "(", ⟨11, 12⟩⟩ ::
            (barePair ++ [⟨.closeParen, ")", ⟨21, 22⟩⟩])) = .ok tree) ∨
        ∃ error, parse 4 barePair = .error error ∧
          parse 4 (⟨.openParen, "(", ⟨11, 12⟩⟩ ::
            (barePair ++ [⟨.closeParen, ")", ⟨21, 22⟩⟩])) =
              .error (.inGroup error)) := by
  have bare : parse 4 barePair =
      .ok (.binary (.comparison .equal) (.identifier "a") (.literal "1")) := by
    cbv
  have parenthesized : parse 4 parenthesizedPair =
      .ok (.binary (.comparison .equal) (.identifier "a") (.literal "1")) := by
    cbv
  have nonempty : barePair ≠ [] := by simp [barePair]
  have balanced := balanced_of_parse bare
  obtain ⟨replace, alone⟩ := @groups_are_compositional
    ⟨.openParen, "(", ⟨11, 12⟩⟩ ⟨.closeParen, ")", ⟨21, 22⟩⟩ 4 rfl rfl
  exact ⟨bare, parenthesized, replace _ _ _ _ _ bare parenthesized, nonempty,
    balanced, alone barePair nonempty balanced⟩

end FilterLang
