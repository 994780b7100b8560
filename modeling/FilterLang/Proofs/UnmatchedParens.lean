import FilterLang.Proofs.GroupErrors
import FilterLang.Proofs.TokenPlaces

/-!
# Errors about parentheses

Groups are reduced from the left until an opening parenthesis is met that
matches no other. So an unmatched parenthesis is reported exactly when there is
one and every outermost group in front of the first one is an expression by
itself. Every parenthesis that is reported is one of the tokens, and where these
are the tokens of a text, one of the text. The main statement is
`paren_errors_exact`.
-/

namespace FilterLang

/-- The tokens of a pair of parentheses and those between them. -/
def ParenPair.group
    (pair : ParenPair)
    (tokens : List Token) : List Token :=
  (tokens.take (pair.closing + 1)).drop pair.opening

/-- The tokens of a list up to a pair's closing parenthesis decide what its
group is. -/
theorem ParenPair.group_append
    {pair : ParenPair}
    {front : List Token}
    (closing_lt : pair.closing < front.length)
    (back : List Token) :
    pair.group (front ++ back) = pair.group front := by
  rw [group, List.take_append_of_le_length closing_lt, group]

theorem ParenPair.group_shift
    (front back : List Token)
    (pair : ParenPair) :
    (pair.shift front.length).group (front ++ back) = pair.group back := by
  rw [group, shift, Nat.add_assoc, List.take_length_add_append,
    List.drop_length_add_append, group]

theorem ParenPair.group_whole
    (contents : List Token)
    (opening closing : Token) :
    ParenPair.group ⟨0, contents.length + 1⟩
        (opening :: (contents ++ [closing])) =
      opening :: (contents ++ [closing]) := by
  rw [group, List.drop_zero]
  apply List.take_of_length_le
  simp

/-- The group of the pair around balanced tokens. -/
theorem ParenPair.group_eq
    (front contents back : List Token)
    (opening closing : Token) :
    ParenPair.group ⟨front.length, front.length + 1 + contents.length⟩
        (front ++ opening :: (contents ++ closing :: back)) =
      opening :: (contents ++ [closing]) := by
  have atStart :
      ParenPair.group ⟨0, contents.length + 1⟩
          (opening :: (contents ++ closing :: back)) =
        opening :: (contents ++ [closing]) := by
    have within :
        ParenPair.group ⟨0, contents.length + 1⟩
            (opening :: (contents ++ [closing]) ++ back) = _ :=
      group_append (by simp) back
    rw [group_whole] at within
    simpa using within
  have shifted := ParenPair.group_shift front
    (opening :: (contents ++ closing :: back)) ⟨0, contents.length + 1⟩
  rw [atStart, shift, Nat.add_comm contents.length 1,
    ← Nat.add_assoc] at shifted
  exact shifted

/-- The first opening parenthesis without a match, when every outermost group in
front of it is an expression by itself. -/
structure FirstUnmatched
    (maxDepth : Nat)
    (tokens : List Token)
    (place : Nat) : Prop where
  unmatched : IsUnmatchedOpen tokens place
  first : ∀ other < place, ¬IsUnmatchedOpen tokens other
  groupsParse : ∀ pair ∈ parenPairs tokens,
    pair.closing < place → nestingLevel tokens pair.opening = 0 →
      ∃ tree, parse maxDepth (pair.group tokens) = .ok tree

/-- What the contents of a group come down to is what the group parses to. -/
theorem parse_group
    {maxDepth : Nat}
    {opening closing : Token}
    {contents : List Token}
    (isOpening : opening.kind = .openParen)
    (balanced : Balanced contents)
    (isClosing : closing.kind = .closeParen) :
    parse maxDepth (opening :: (contents ++ [closing])) =
      (Row.reduceBetween Phase.standard maxDepth 0 opening contents).map
        Subtree.tree := by
  rw [parse, parseBy, Row.reduce_ofTokens_group (Nat.zero_le maxDepth) isOpening
    balanced isClosing]
  cases Row.reduceBetween Phase.standard maxDepth 0 opening contents <;> rfl

/-- Among tokens whose groups have been reduced, every outermost group is an
expression by itself. -/
theorem Row.Covers.outermost_parses
    {maxDepth : Nat}
    {row : Row}
    {tokens : List Token}
    (covers : row.Covers (Slot.Reduced Phase.standard maxDepth 0) tokens)
    {pair : ParenPair}
    (member : pair ∈ parenPairs tokens)
    (outermost : ∀ other ∈ parenPairs tokens, ¬other.encloses pair.opening) :
    ∃ tree, parse maxDepth (pair.group tokens) = .ok tree := by
  induction covers generalizing pair with
  | nil => simp [parenPairs, parenPairsFrom] at member
  | @cons slot row part tokens first later hypothesis =>
      rw [first.closed.parenPairs_append] at member outermost
      rcases List.mem_append.mp member with inPart | behind
      · obtain ⟨-, -, closing_lt⟩ := bounds_of_mem_parenPairsFrom inPart
        have inOrder := opening_lt_closing (by simp) inPart
        rw [ParenPair.group_append (by omega)]
        cases first with
        | token notOpening =>
            rw [List.length_singleton] at closing_lt
            omega
        | @group opening closing contents subtree isOpening balanced isClosing
            reduced =>
            obtain rfl := outermost_pair_of_group isOpening balanced isClosing
              inPart fun other otherMember =>
                outermost other (List.mem_append_left _ otherMember)
            refine ⟨subtree.tree, ?_⟩
            rw [ParenPair.group_whole, parse_group isOpening balanced isClosing,
              reduced]
            rfl
      · obtain ⟨inner, innerMember, rfl⟩ := List.mem_map.mp behind
        rw [ParenPair.group_shift]
        refine hypothesis innerMember ?_
        intro other otherMember encloses
        refine outermost _ (List.mem_append_right _
          (List.mem_map_of_mem otherMember)) ?_
        exact (ParenPair.encloses_shift part.length inner.opening other).trans
          encloses

section

variable {maxDepth : Nat} {tokens : List Token}

/-- A parenthesis that is reported as unmatched is the first one without a
match. -/
theorem firstUnmatched_of_parse
    {fault : ParseError}
    {position : Nat}
    (failed : parse maxDepth tokens = .error fault)
    (isUnmatched : fault = .danglingOpen position ∨
      fault = .unmatchedOpen position) :
    ∃ place opening,
      FirstUnmatched maxDepth tokens place ∧
      tokens[place]? = some opening ∧
      opening.position = position ∧
      fault = if place + 1 = tokens.length then
        .danglingOpen position
      else
        .unmatchedOpen position := by
  obtain ⟨row, front, behind, opening, outer, rfl, covers, isOpening,
    position_eq, leaves, fault_eq⟩ :=
    Row.reduce_eq_unmatched (parse_eq_error_iff.mp failed) isUnmatched
  have frontClosed := covers.closed fun _ _ => Slot.Reduced.closed
  obtain ⟨unmatched, first⟩ := isFirstUnmatchedOpen frontClosed isOpening leaves
  refine ⟨front.length, opening, ⟨unmatched, first, ?_⟩, by simp, position_eq,
    ?_⟩
  · intro pair member before outermost
    rw [nestingLevel_eq_zero_iff] at outermost
    rw [parenPairs, frontClosed.parenPairsFrom_append] at member outermost
    rcases List.mem_append.mp member with inFront | behindFront
    · rw [ParenPair.group_append before]
      exact covers.outermost_parses inFront fun other otherMember =>
        outermost other (List.mem_append_left _ otherMember)
    · obtain ⟨-, closing_ge, -⟩ := bounds_of_mem_parenPairsFrom behindFront
      omega
  · rw [fault_eq]
    cases behind with
    | nil => simp
    | cons token behind => simp

/-- The first parenthesis without a match is reported, once the groups in front
of it have been reduced. -/
theorem parse_of_firstUnmatched
    {place : Nat}
    {opening : Token}
    (first : FirstUnmatched maxDepth tokens place)
    (atPlace : tokens[place]? = some opening) :
    parse maxDepth tokens =
      .error (if place + 1 = tokens.length then
        .danglingOpen opening.position
      else
        .unmatchedOpen opening.position) := by
  have outcome : GroupOutcome Phase.standard maxDepth 0 tokens _ :=
    Row.groupOutcome (Nat.zero_le maxDepth) tokens
  generalize reduced : Row.reduce Phase.standard maxDepth 0
    (Row.ofTokens tokens) = result at outcome
  cases outcome with
  | assembled covers assembled_eq =>
      have tokensClosed := covers.closed fun _ _ => Slot.Reduced.closed
      exact absurd first.unmatched (tokensClosed.not_isUnmatchedOpen place)
  | @unmatched row front behind other outer tokens_eq covers isOpening leaves =>
      subst tokens_eq
      have frontClosed := covers.closed fun _ _ => Slot.Reduced.closed
      obtain ⟨unmatched, none⟩ :=
        isFirstUnmatchedOpen frontClosed isOpening leaves
      obtain rfl : place = front.length := by
        apply Nat.le_antisymm
        · exact Nat.le_of_not_lt fun less => first.first _ less unmatched
        · exact Nat.le_of_not_lt fun less => none _ less first.unmatched
      obtain rfl : other = opening := by simpa using atPlace
      rw [parse_eq_error_iff, reduced]
      cases behind with
      | nil => simp
      | cons token behind => simp
  | @faulty front contents behind other closing fault tokens_eq frontClosed
      isOpening balanced isClosing between =>
      subst tokens_eq
      have groupClosed :=
        frontClosed.append (closed_group isOpening balanced isClosing)
      have split_eq :
          front ++ other :: (contents ++ closing :: behind) =
            front ++ (other :: (contents ++ [closing])) ++ behind := by
        simp
      have after : front.length + 1 + contents.length < place := by
        have unmatched := first.unmatched
        rw [split_eq] at unmatched
        have length_le := groupClosed.length_le_of_isUnmatchedOpen unmatched
        simp only [List.length_append, List.length_cons, List.length_nil]
          at length_le
        omega
      obtain ⟨tree, parsed⟩ := first.groupsParse
        ⟨front.length, front.length + 1 + contents.length⟩
        (by simp [parenPairs_group frontClosed isOpening balanced isClosing])
        after (frontClosed.nestingLevel_behind _)
      rw [ParenPair.group_eq, parse_group isOpening balanced isClosing,
        between] at parsed
      cases parsed

end

/-! ## Where the reported parentheses stand -/

/-- The position of the parenthesis that an error is about. -/
def ParseError.parenPosition? : ParseError → Option Nat
  | danglingOpen position => some position
  | unmatchedOpen position => some position
  | emptyGroup position => some position
  | inGroup inner => inner.parenPosition?
  | _ => none

namespace Row

variable {schedule : List Phase} {limit level : Nat} {tokens : List Token}

/-- Under any number of groups, an empty group is two parentheses next to each
other. -/
theorem exists_emptyGroup
    {error : ParseError}
    {position : Nat}
    (failed : reduce schedule limit level (ofTokens tokens) = .error error)
    (isEmpty : error.innermost = .emptyGroup position) :
    ∃ (front back : List Token) (opening closing : Token),
      tokens = front ++ opening :: closing :: back ∧
      opening.kind = .openParen ∧
      opening.position = position ∧
      closing.kind = .closeParen := by
  induction error generalizing level tokens with
  | inGroup inner hypothesis =>
      obtain ⟨outerFront, contents, outerBack, outerOpening, outerClosing, rfl,
        -, -, -, -, contentsFailed, -⟩ := reduce_eq_inGroup failed
      obtain ⟨front, back, opening, closing, rfl, found⟩ :=
        hypothesis contentsFailed isEmpty
      refine ⟨outerFront ++ outerOpening :: front,
        back ++ outerClosing :: outerBack, opening, closing, ?_, found⟩
      simp
  | emptyGroup other =>
      cases isEmpty
      exact reduce_eq_emptyGroup failed
  | _ => cases isEmpty

/-- An error about a parenthesis is about one of the tokens. -/
theorem exists_openParen
    {error : ParseError}
    {position : Nat}
    (failed : reduce schedule limit level (ofTokens tokens) = .error error)
    (about : error.parenPosition? = some position) :
    ∃ opening ∈ tokens,
      opening.kind = .openParen ∧ opening.position = position := by
  induction error generalizing level tokens with
  | inGroup inner hypothesis =>
      obtain ⟨front, contents, back, outerOpening, closing, rfl, -, -, -, -,
        contentsFailed, -⟩ := reduce_eq_inGroup failed
      obtain ⟨opening, member, found⟩ := hypothesis contentsFailed about
      exact ⟨opening, by simp [member], found⟩
  | emptyGroup other =>
      cases about
      obtain ⟨front, back, opening, closing, rfl, isOpening, position_eq, -⟩ :=
        reduce_eq_emptyGroup failed
      exact ⟨opening, by simp, isOpening, position_eq⟩
  | danglingOpen other =>
      cases about
      obtain ⟨row, front, behind, opening, outer, rfl, -, isOpening,
        position_eq, -⟩ := reduce_eq_unmatched failed (Or.inl rfl)
      exact ⟨opening, by simp, isOpening, position_eq⟩
  | unmatchedOpen other =>
      cases about
      obtain ⟨row, front, behind, opening, outer, rfl, -, isOpening,
        position_eq, -⟩ := reduce_eq_unmatched failed (Or.inr rfl)
      exact ⟨opening, by simp, isOpening, position_eq⟩
  | _ => cases about

end Row

/-- An unmatched parenthesis is reported exactly when there is one and every
outermost group in front of the first one is an expression by itself; the error
tells the position of that first one and whether it is the last token. An empty
group is two parentheses next to each other. Where the tokens are those of a
text, each of these errors points to a parenthesis of the text outside of all
literals. -/
theorem paren_errors_exact
    (maxDepth : Nat)
    (tokens : List Token) :
    (∀ position,
      (parse maxDepth tokens = .error (.danglingOpen position) ↔
        ∃ place opening,
          FirstUnmatched maxDepth tokens place ∧
          tokens[place]? = some opening ∧
          opening.position = position ∧
          place + 1 = tokens.length) ∧
      (parse maxDepth tokens = .error (.unmatchedOpen position) ↔
        ∃ place opening,
          FirstUnmatched maxDepth tokens place ∧
          tokens[place]? = some opening ∧
          opening.position = position ∧
          place + 1 ≠ tokens.length)) ∧
    (∀ error position,
      parse maxDepth tokens = .error error →
      error.innermost = .emptyGroup position →
      ∃ (front back : List Token) (opening closing : Token),
        tokens = front ++ opening :: closing :: back ∧
        opening.kind = .openParen ∧
        opening.position = position ∧
        closing.kind = .closeParen) ∧
    ∀ source error position,
      tokenize source = .ok tokens →
      parse maxDepth tokens = .error error →
      error.parenPosition? = some position →
      ∃ front back,
        source.toList = front ++ '(' :: back ∧
        byteLength front + 1 = position ∧
        ∀ literal ∈ tokens, literal.kind = .literal →
          byteLength front < literal.span.start ∨
            literal.span.stop ≤ byteLength front := by
  refine ⟨?_, ?_, ?_⟩
  · intro position
    refine ⟨⟨?_, ?_⟩, ⟨?_, ?_⟩⟩
    · intro failed
      obtain ⟨place, opening, first, atPlace, position_eq, fault_eq⟩ :=
        firstUnmatched_of_parse failed (Or.inl rfl)
      refine ⟨place, opening, first, atPlace, position_eq, ?_⟩
      by_contra notLast
      rw [if_neg notLast] at fault_eq
      cases fault_eq
    · rintro ⟨place, opening, first, atPlace, rfl, isLast⟩
      rw [parse_of_firstUnmatched first atPlace, if_pos isLast]
    · intro failed
      obtain ⟨place, opening, first, atPlace, position_eq, fault_eq⟩ :=
        firstUnmatched_of_parse failed (Or.inr rfl)
      refine ⟨place, opening, first, atPlace, position_eq, ?_⟩
      intro isLast
      rw [if_pos isLast] at fault_eq
      cases fault_eq
    · rintro ⟨place, opening, first, atPlace, rfl, notLast⟩
      rw [parse_of_firstUnmatched first atPlace, if_neg notLast]
  · intro error position failed isEmpty
    exact Row.exists_emptyGroup (parse_eq_error_iff.mp failed) isEmpty
  · intro source error position divided failed about
    obtain ⟨opening, member, isOpening, rfl⟩ :=
      Row.exists_openParen (parse_eq_error_iff.mp failed) about
    exact openParen_in_source divided member isOpening

end FilterLang
