import FilterLang.Proofs.GroupErrors
import FilterLang.Proofs.SlotOrigins

/-!
# Errors about operators

An error about an operator points to a fault of the tokens around it: the
operator is the first or the last token, or it stands next to another operator,
to an unmatched parenthesis, or to something that a comparison does not take.
Where more than one expression is left, two of them stand side by side. The main
statement, `operator_error_is_local`, says so of every error that is not about a
parenthesis or a limit.
-/

namespace FilterLang

/-- A place is the one next to another on a side of it. -/
def Side.IsNext : Side → Nat → Nat → Prop
  | left, place, next => next + 1 = place
  | right, place, next => place + 1 = next

/-- Some tokens from a place on adjoin another place on a side of it. -/
def Side.Adjoins (place start count : Nat) : Side → Prop
  | left => start + count = place
  | right => place + 1 = start

/-- The fault of the tokens that an error about an operator, or about what is
left in the end, points to. -/
def ParseError.IsLocal
    (tokens : List Token) : ParseError → Prop
  | missingOperand operator .right =>
      ∃ symbol, tokens.getLast? = some symbol ∧
        symbol.kind = .operator operator
  | missingOperand operator .left =>
      operator ≠ .not ∧
        ∃ symbol, tokens.head? = some symbol ∧
          symbol.kind = .operator operator
  | unreducedOperand operator side found =>
      ∃ place next symbol,
        StandsOutside tokens place symbol ∧
        symbol.kind = .operator operator ∧
        side.IsNext place next ∧
        StandsOutside tokens next found ∧
        ((∃ other, found.kind = .operator other) ∨
          IsUnmatchedClose tokens next)
  | invalidOperand operator side =>
      operator.isComparison ∧
        ∃ place next symbol neighbour,
          StandsOutside tokens place symbol ∧
          symbol.kind = .operator operator ∧
          side.IsNext place next ∧
          StandsOutside tokens next neighbour ∧
          ((∃ pair ∈ parenPairs tokens,
              next = pair.opening ∨ next = pair.closing) ∨
            neighbour.leaf?.isSome ∧
              ∃ beyond other kind,
                side.IsNext next beyond ∧
                StandsOutside tokens beyond other ∧
                other.kind = .comparison kind)
  | notSingle =>
      tokens = [] ∨ (∃ place, IsUnmatchedClose tokens place) ∨
        ∃ place, EndsOperand tokens place ∧ BeginsOperand tokens (place + 1)
  | _ => True

section

variable {tokens : List Token}

/-- The tokens that the slot next to an operator is made from stand next to
it. -/
theorem Row.Covers.next_to_symbol
    {front back rest : Row}
    {symbol : Token}
    {slot : Slot}
    (covers : Row.Covers Slot.Made (front ++ .token symbol :: back) tokens)
    (side : Side)
    (slots_eq : side.slots front back = slot :: rest) :
    ∃ (before part after : List Token) (place : Nat),
      tokens = before ++ (part ++ after) ∧
      Closed before ∧
      slot.Made part ∧
      StandsOutside tokens place symbol ∧
      side.Adjoins place before.length part.length := by
  obtain ⟨frontTokens, backTokens, rfl, frontCovers, symbolMade, backCovers⟩ :=
    covers.divide_at_token
  cases side with
  | left =>
      obtain rfl := List.reverse_eq_cons_iff.mp slots_eq
      obtain ⟨before, parts, rfl, beforeCovers, partCovers⟩ :=
        frontCovers.divide
      obtain ⟨part, none, rfl, made, noneCovers⟩ :=
        covers_cons_iff.mp partCovers
      cases noneCovers
      have outside := frontCovers.made_closed.standsOutside symbol backTokens
      rw [List.append_nil] at outside ⊢
      refine ⟨before, part, symbol :: backTokens, _, ?_,
        beforeCovers.made_closed, made, outside, ?_⟩
      · exact List.append_assoc _ _ _
      · exact List.length_append.symm
  | right =>
      obtain rfl : back = slot :: rest := slots_eq
      obtain ⟨part, after, rfl, made, -⟩ := covers_cons_iff.mp backCovers
      refine ⟨frontTokens ++ [symbol], part, after, _, ?_,
        frontCovers.made_closed.append symbolMade.closed, made,
        frontCovers.made_closed.standsOutside symbol (part ++ after), ?_⟩
      · exact List.append_cons _ _ _
      · rw [Side.Adjoins, List.length_append, List.length_singleton]

/-- An operator without an operand on one side is the first or the last token,
or its neighbour on that side is none. -/
theorem OperandFault.isLocal
    {operator : Operator}
    {side : Side}
    {front back : Row}
    {symbol : Token}
    {fault : ParseError}
    (covers : Row.Covers Slot.Made (front ++ .token symbol :: back) tokens)
    (isOperator : symbol.kind = .operator operator)
    (takesSide : side = .left → operator ≠ .not)
    (tight : operator.isComparison → ∀ subtree,
      Slot.node subtree ∈ side.slots front back →
        subtree.tree.level.rank ≤ 1)
    (faulty : OperandFault operator side (side.slots front back) fault) :
    fault.IsLocal tokens := by
  generalize slots_eq : side.slots front back = slots at faulty tight
  cases faulty with
  | missing =>
      obtain ⟨frontTokens, backTokens, rfl, frontCovers, -, backCovers⟩ :=
        covers.divide_at_token
      cases side with
      | left =>
          obtain rfl := List.reverse_eq_nil_iff.mp slots_eq
          cases frontCovers
          exact ⟨takesSide rfl, symbol, by simp, isOperator⟩
      | right =>
          obtain rfl : back = [] := slots_eq
          cases backCovers
          exact ⟨symbol, by simp, isOperator⟩
  | @unreduced found rest =>
      obtain ⟨before, part, after, place, rfl, closed, made, outside,
        adjoins⟩ := covers.next_to_symbol side slots_eq
      cases made with
      | token unused =>
          refine ⟨place, before.length, symbol, outside, isOperator, ?_,
            closed.standsOutside _ _, ?_⟩
          · cases side <;> exact adjoins
          · cases kind_eq : found.kind with
            | operator other => exact Or.inl ⟨other, rfl⟩
            | closeParen => exact Or.inr (closed.isUnmatchedClose kind_eq _)
            | _ => simp [kind_eq, TokenKind.rank] at unused
  | @compound subtree rest isComparison notLeaf =>
      obtain ⟨before, part, after, place, rfl, closed, made, outside,
        adjoins⟩ := covers.next_to_symbol side slots_eq
      obtain ⟨first, other, second, kind, rfl, firstLeaf, isOther,
        secondLeaf⟩ := made.eq_of_comparison notLeaf
          (tight isComparison subtree List.mem_cons_self)
      obtain ⟨leaf, stands⟩ := Option.isSome_iff_exists.mp firstLeaf
      obtain ⟨atFirst, atOther, atSecond⟩ :=
        standsOutside_of_comparison closed stands isOther after
      refine ⟨isComparison, place, ?_⟩
      cases side with
      | left =>
          exact ⟨before.length + 2, symbol, second, outside, isOperator,
            adjoins, atSecond, Or.inr ⟨secondLeaf, before.length + 1, other,
              kind, rfl, atOther, isOther⟩⟩
      | right =>
          exact ⟨before.length, symbol, first, outside, isOperator, adjoins,
            atFirst, Or.inr ⟨firstLeaf, before.length + 1, other, kind, rfl,
              atOther, isOther⟩⟩
  | @group subtree rest isComparison =>
      obtain ⟨before, part, after, place, rfl, closed, made, outside,
        adjoins⟩ := covers.next_to_symbol side slots_eq
      cases made with
      | group isOpening balanced isClosing =>
          obtain ⟨pair, member, opening_eq, closing_eq, atOpening, atClosing⟩ :=
            standsOutside_of_group closed isOpening balanced isClosing after
          refine ⟨isComparison, place, ?_⟩
          cases side with
          | left =>
              refine ⟨pair.closing, symbol, _, outside, isOperator, ?_,
                atClosing, Or.inl ⟨pair, member, Or.inr rfl⟩⟩
              simp only [Side.Adjoins, List.length_cons, List.length_append,
                List.length_nil] at adjoins
              rw [Side.IsNext, closing_eq]
              omega
          | right =>
              refine ⟨pair.opening, symbol, _, outside, isOperator, ?_,
                atOpening, Or.inl ⟨pair, member, Or.inl rfl⟩⟩
              rw [Side.IsNext, opening_eq]
              exact adjoins

theorem Phase.Fails.isLocal
    {limit : Nat}
    {phase : Phase}
    {row : Row}
    {fault : ParseError}
    (covers : row.Covers Slot.Made tokens)
    (tight : ∀ operator ∈ phase.operators, operator.isComparison →
      ∀ subtree, Slot.node subtree ∈ row → subtree.tree.level.rank ≤ 1)
    (fails : phase.Fails limit row fault) :
    fault.IsLocal tokens := by
  cases fails with
  | @operand operator symbol side front back _ member isOperator takesSide
      faulty =>
      refine OperandFault.isLocal covers isOperator takesSide ?_ faulty
      intro isComparison subtree inSlots
      apply tight operator member isComparison
      cases side with
      | left => simp [List.mem_reverse.mp inSlots]
      | right =>
          have inBack : Slot.node subtree ∈ back := inSlots
          simp [inBack]
  | tooDeep => trivial

theorem kind_eq_closeParen
    {kind : TokenKind}
    (loose : 4 < kind.rank) :
    kind = .closeParen := by
  cases kind with
  | closeParen => rfl
  | operator operator =>
      cases operator with
      | not => exact absurd loose (by decide)
      | binary op =>
          cases op <;>
            simp [TokenKind.rank, BinaryOp.level, Level.rank] at loose
  | _ => exact absurd loose (by decide)

/-- Where all operators have been reduced and no single expression is left,
there is no token at all, an unmatched parenthesis, or an operand next to
another. -/
theorem Row.notSingle_isLocal
    {limit : Nat}
    {row : Row}
    {fault : ParseError}
    (covers : row.Covers Slot.Made tokens)
    (fits : ∀ slot ∈ row, slot.Fits limit 4 4)
    (failed : row.single = .error fault) :
    fault.IsLocal tokens := by
  obtain rfl := single_eq_error failed
  by_cases token : ∃ found, Slot.token found ∈ row
  · obtain ⟨found, member⟩ := token
    have isClosing := kind_eq_closeParen (fits _ member)
    obtain ⟨front, back, rfl⟩ := List.append_of_mem member
    obtain ⟨frontTokens, backTokens, rfl, frontCovers, -, -⟩ :=
      covers.divide_at_token
    exact Or.inr (Or.inl ⟨frontTokens.length,
      frontCovers.made_closed.isUnmatchedClose isClosing backTokens⟩)
  · have operands : ∀ slot ∈ row, slot.token? = none := by
      intro slot member
      cases slot with
      | token found => exact absurd ⟨found, member⟩ token
      | node => rfl
      | group => rfl
    cases covers with
    | nil => exact Or.inl rfl
    | @cons slot _ part _ first later =>
        have firstOperand := operands slot (by simp)
        cases later with
        | nil =>
            cases slot with
            | token found => cases firstOperand
            | node => cases failed
            | group => cases failed
        | @cons next _ nextPart rest second later =>
            obtain ⟨place, place_eq, ends⟩ :=
              first.ends firstOperand closed_nil (nextPart ++ rest)
            have begins :=
              second.begins (operands next (by simp)) first.closed rest
            rw [List.length_nil, Nat.zero_add] at place_eq
            rw [← place_eq] at begins
            exact Or.inr (Or.inr ⟨place, ends, begins⟩)

/-- While comparisons are resolved, nodes are leaves and comparisons only. -/
def Row.Comparing
    (limit : Nat)
    (tokens : List Token)
    (row : Row) : Prop :=
  row.Covers Slot.Made tokens ∧ ∀ slot ∈ row, slot.Fits limit 0 1

theorem Row.Comparing.steps
    {limit : Nat}
    (rounds : List (List Comparison)) :
    ∀ phase ∈ rounds.map fun kinds =>
        Phase.binary (kinds.map BinaryOp.comparison),
      ∀ row next, Comparing limit tokens row → phase.Steps limit row next →
        Comparing limit tokens next := by
  rintro phase member row next ⟨covers, fits⟩ steps
  obtain ⟨kinds, -, rfl⟩ := List.mem_map.mp member
  exact ⟨covers.steps steps,
    (Phase.faithful_comparisons limit kinds).preserved fits steps⟩

/-- Where comparisons fail and where what follows them fails, the error is
local. -/
theorem Row.exhaustAll_isLocal
    {limit : Nat}
    {rounds : List (List Comparison)}
    {row : Row}
    {fault : ParseError}
    (comparing : row.Comparing limit tokens)
    (failed : exhaustAll limit (Phase.schedule rounds) row = .error fault) :
    fault.IsLocal tokens := by
  obtain ⟨resolved, stuckBefore⟩ :=
    exhaustAll_outcome (Comparing.steps rounds) comparing
  rw [exhaustAll, Phase.schedule, List.foldlM_append, bind_eq_error_iff]
    at failed
  rcases failed with first | ⟨middle, first, later⟩
  · obtain ⟨phase, -, stuck, ⟨covers, fits⟩, fails⟩ := stuckBefore fault first
    refine fails.isLocal covers ?_
    intro operator _ _ subtree member
    exact (fits _ member).2
  · obtain ⟨phase, member, stuck, covers, fails⟩ :=
      (exhaustAll_outcome (Covers.steps_of_schedule _)
        (resolved middle first).1).2 fault later
    refine fails.isLocal covers ?_
    have noComparison :
        ∀ phase ∈ [Phase.negation, .binary [.and], .binary [.or]],
          ∀ operator ∈ phase.operators, operator.isComparison = false := by
      decide
    intro operator operatorMember isComparison
    rw [noComparison phase member operator operatorMember] at isComparison
    cases isComparison

/-- Once groups have been reduced, every error is local. -/
theorem Row.assemble_isLocal
    {limit : Nat}
    {rounds : List (List Comparison)}
    {row : Row}
    {fault : ParseError}
    (everyKind : ∀ kind : Comparison, ∃ kinds ∈ rounds, kind ∈ kinds)
    (comparing : Comparing limit tokens (row.map Slot.toLeaf))
    (failed : row.assemble (Phase.schedule rounds) limit = .error fault) :
    fault.IsLocal tokens := by
  rw [assemble, bind_eq_error_iff] at failed
  rcases failed with exhausted | ⟨final, exhausted, several⟩
  · exact exhaustAll_isLocal comparing exhausted
  · have finalCovers :=
      (exhaustAll_outcome (Covers.steps_of_schedule _) comparing.1).1 final
        exhausted
    obtain ⟨finalFits, -⟩ :=
      (keeps_schedule everyKind).sound comparing.2 exhausted
    exact notSingle_isLocal finalCovers finalFits several

end

/-- Every group that has been reduced carries its depth. -/
theorem Row.Covers.fresh
    {limit level : Nat}
    {rounds : List (List Comparison)}
    {row : Row}
    {tokens : List Token}
    (everyKind : ∀ kind : Comparison, ∃ kinds ∈ rounds, kind ∈ kinds)
    (covers : row.Covers
      (Slot.Reduced (Phase.schedule rounds) limit level) tokens) :
    Fresh limit row := by
  intro slot member
  obtain ⟨part, reduced⟩ := covers.exists_part member
  cases reduced with
  | token => exact Or.inl ⟨_, rfl⟩
  | @group opening closing contents subtree isOpening balanced isClosing
      reduced =>
      refine Or.inr ⟨subtree, rfl, ?_⟩
      unfold reduceBetween at reduced
      split at reduced
      · cases reduced
      · have contentsReduced := mapError_eq_ok_iff.mp reduced
        exact ((reduce_eq_ok_iff everyKind (fresh_ofTokens limit contents)).mp
          contentsReduced).2.1

/-- An error that is neither about a parenthesis nor about the limit points to a
fault of the tokens outside of all groups. -/
theorem operator_error_is_local
    {maxDepth : Nat}
    {tokens : List Token}
    {error : ParseError}
    (failed : parse maxDepth tokens = .error error) :
    error.IsLocal tokens := by
  rw [parse_eq_error_iff] at failed
  by_cases tooDeep : error = .tooDeep maxDepth
  · subst tooDeep
    trivial
  · obtain ⟨-, outcome⟩ := Row.groupOutcome_error failed tooDeep
    cases outcome with
    | assembled covers assembled_eq =>
        have fresh := covers.fresh Comparison.standard_covers
        have made := covers.map fun _ _ => Slot.Reduced.made_toLeaf
        exact Row.assemble_isLocal Comparison.standard_covers
          ⟨made, fresh.fits covers.noParen⟩ assembled_eq
    | unmatched => split <;> trivial
    | faulty tokens_eq frontClosed isOpening balanced isClosing between =>
        rcases Row.reduceBetween_eq_error between with
          ⟨-, rfl⟩ | ⟨inner, rfl, -⟩
        · trivial
        · cases inner <;> trivial

/-- The tokens of `a = b = c`. -/
def chainedComparison : List Token :=
  [⟨.identifier, "a", ⟨0, 1⟩⟩, ⟨.comparison .equal, "=", ⟨2, 3⟩⟩,
    ⟨.identifier, "b", ⟨4, 5⟩⟩, ⟨.comparison .equal, "=", ⟨6, 7⟩⟩,
    ⟨.identifier, "c", ⟨8, 9⟩⟩]

theorem operator_error_is_local_in_chain :
    parse 1 chainedComparison =
        .error (.invalidOperand (.binary (.comparison .equal)) .left) ∧
      (ParseError.invalidOperand
        (.binary (.comparison .equal)) .left).IsLocal chainedComparison := by
  have failed :
      parse 1 chainedComparison =
        .error (.invalidOperand (.binary (.comparison .equal)) .left) := by
    cbv
  exact ⟨failed, operator_error_is_local failed⟩

end FilterLang
