import FilterLang.Token.Matching

/-!
# Matching parentheses part by part

The pairs of a list of tokens are those of its parts, once it is known which
parentheses are still open between the parts. A list is closed when no
parenthesis is open behind it; it is balanced when, besides, it closes none but
its own. The main statements give the pairs around a balanced list between
parentheses, and the number of pairs around a place next to a closed list.
-/

namespace FilterLang

/-- The parentheses that are open behind some tokens, the last one first, when
those at the indices `pending` were open before them. -/
def pendingAfter
    (index : Nat)
    (pending : List Nat) : List Token → List Nat
  | [] => pending
  | token :: tokens =>
      if token.kind = .openParen then
        pendingAfter (index + 1) (index :: pending) tokens
      else if token.kind = .closeParen then
        pendingAfter (index + 1) pending.tail tokens
      else
        pendingAfter (index + 1) pending tokens

section

variable {index : Nat} {pending : List Nat}

theorem pendingAfter_append
    (index : Nat)
    (pending : List Nat)
    (front back : List Token) :
    pendingAfter index pending (front ++ back) =
      pendingAfter (index + front.length) (pendingAfter index pending front)
        back := by
  fun_induction pendingAfter index pending front with
  | case1 => rfl
  | case2 index pending token tokens isOpening hypothesis =>
      simp only [List.cons_append, pendingAfter, if_pos isOpening, hypothesis,
        List.length_cons, Nat.add_assoc, Nat.add_comm 1]
  | case3 index pending token tokens notOpening isClosing hypothesis =>
      simp only [List.cons_append, pendingAfter, if_neg notOpening,
        if_pos isClosing, hypothesis, List.length_cons, Nat.add_assoc,
        Nat.add_comm 1]
  | case4 index pending token tokens notOpening notClosing hypothesis =>
      simp only [List.cons_append, pendingAfter, if_neg notOpening,
        if_neg notClosing, hypothesis, List.length_cons, Nat.add_assoc,
        Nat.add_comm 1]

/-- The pairs of two parts, one behind the other. -/
theorem parenPairsFrom_append
    (index : Nat)
    (pending : List Nat)
    (front back : List Token) :
    parenPairsFrom index pending (front ++ back) =
      parenPairsFrom index pending front ++
        parenPairsFrom (index + front.length)
          (pendingAfter index pending front) back := by
  fun_induction parenPairsFrom index pending front with
  | case1 => rfl
  | case2 index pending token tokens isOpening hypothesis =>
      simp only [List.cons_append, parenPairsFrom, pendingAfter,
        if_pos isOpening, hypothesis, List.length_cons, Nat.add_assoc,
        Nat.add_comm 1]
  | case3 index token tokens notOpening isClosing hypothesis =>
      simp only [List.cons_append, parenPairsFrom, pendingAfter,
        if_neg notOpening, if_pos isClosing, hypothesis, List.length_cons,
        Nat.add_assoc, Nat.add_comm 1, List.tail_nil]
  | case4 index token tokens notOpening isClosing opening pending hypothesis =>
      simp only [List.cons_append, parenPairsFrom, pendingAfter,
        if_neg notOpening, if_pos isClosing, hypothesis, List.length_cons,
        Nat.add_assoc, Nat.add_comm 1, List.tail_cons]
  | case5 index pending token tokens notOpening notClosing hypothesis =>
      simp only [List.cons_append, parenPairsFrom, pendingAfter,
        if_neg notOpening, if_neg notClosing, hypothesis, List.length_cons,
        Nat.add_assoc, Nat.add_comm 1]

/-- A pair closes among the tokens and opens among them or before them. -/
theorem bounds_of_mem_parenPairsFrom
    {tokens : List Token}
    {pair : ParenPair}
    (member : pair ∈ parenPairsFrom index pending tokens) :
    (pair.opening ∈ pending ∨ index ≤ pair.opening) ∧
      index ≤ pair.closing ∧ pair.closing < index + tokens.length := by
  fun_induction parenPairsFrom index pending tokens with
  | case1 => simp at member
  | case2 index pending token tokens isOpening hypothesis =>
      have bounds := hypothesis member
      grind
  | case3 index token tokens notOpening isClosing hypothesis =>
      have bounds := hypothesis member
      grind
  | case4 index token tokens notOpening isClosing opening pending hypothesis =>
      rcases List.mem_cons.mp member with rfl | later
      · simp
      · have bounds := hypothesis later
        grind
  | case5 index pending token tokens notOpening notClosing hypothesis =>
      have bounds := hypothesis member
      grind

/-- A pair opens before it closes. -/
theorem opening_lt_closing
    {tokens : List Token}
    {pair : ParenPair}
    (before : ∀ opening ∈ pending, opening < index)
    (member : pair ∈ parenPairsFrom index pending tokens) :
    pair.opening < pair.closing := by
  fun_induction parenPairsFrom index pending tokens with
  | case1 => simp at member
  | case2 index pending token tokens isOpening hypothesis =>
      exact hypothesis (by grind) member
  | case3 index token tokens notOpening isClosing hypothesis =>
      exact hypothesis (by simp) member
  | case4 index token tokens notOpening isClosing opening pending hypothesis =>
      rcases List.mem_cons.mp member with rfl | later
      · exact before opening List.mem_cons_self
      · exact hypothesis (by grind) later
  | case5 index pending token tokens notOpening notClosing hypothesis =>
      exact hypothesis (by grind) member

/-- The opening parentheses of some tokens, when so many stand before them, are
the first token, if it is one, and those of the others. -/
theorem opens_cons_iff
    {token : Token}
    {tokens : List Token}
    {place : Nat} :
    (index ≤ place ∧
        ((token :: tokens)[place - index]?).any (·.kind = .openParen)) ↔
      (token.kind = .openParen ∧ place = index) ∨
        (index + 1 ≤ place ∧
          (tokens[place - (index + 1)]?).any (·.kind = .openParen)) := by
  by_cases first : place = index
  · subst first
    simp only [Nat.le_refl, Nat.sub_self, List.getElem?_cons_zero,
      Option.any_some, decide_eq_true_eq, true_and, and_true,
      Nat.not_succ_le_self, false_and, or_false]
  · by_cases later : index + 1 ≤ place
    · have later_eq : place - index = place - (index + 1) + 1 := by omega
      have index_le : index ≤ place := by omega
      simp [later_eq, later, index_le, first]
    · have less : ¬index ≤ place := by omega
      simp [less, later, first]

/-- Behind some tokens those parentheses are open that were open before or are
opened among the tokens, and that no pair takes up. -/
theorem mem_pendingAfter_iff
    {tokens : List Token}
    {place : Nat}
    (before : ∀ opening ∈ pending, opening < index)
    (distinct : pending.Nodup) :
    place ∈ pendingAfter index pending tokens ↔
      (place ∈ pending ∨
          index ≤ place ∧
            (tokens[place - index]?).any (·.kind = .openParen)) ∧
        ∀ pair ∈ parenPairsFrom index pending tokens,
          pair.opening ≠ place := by
  fun_induction parenPairsFrom index pending tokens with
  | case1 => simp [pendingAfter]
  | case2 index pending token tokens isOpening hypothesis =>
      have wider : ∀ opening ∈ index :: pending, opening < index + 1 := by
        grind
      have fresh : (index :: pending).Nodup := by grind
      rw [pendingAfter, if_pos isOpening, hypothesis wider fresh,
        opens_cons_iff]
      simp only [List.mem_cons, isOpening, true_and]
      grind
  | case3 index token tokens notOpening isClosing hypothesis =>
      rw [pendingAfter, if_neg notOpening, if_pos isClosing, List.tail_nil,
        hypothesis (by simp) distinct, opens_cons_iff]
      simp [notOpening]
  | case4 index token tokens notOpening isClosing opening pending hypothesis =>
      have fewer : ∀ other ∈ pending, other < index + 1 := by grind
      obtain ⟨taken, rest⟩ := List.nodup_cons.mp distinct
      have opening_lt : opening < index := before opening List.mem_cons_self
      rw [pendingAfter, if_neg notOpening, if_pos isClosing, List.tail_cons,
        hypothesis fewer rest, opens_cons_iff, List.forall_mem_cons]
      simp only [notOpening, false_and, false_or, List.mem_cons]
      -- The parenthesis that is closed here is neither open before it still nor
      -- among the tokens behind it.
      have opening_ne : place ∈ pending ∨ index + 1 ≤ place →
          opening ≠ place := by
        rintro (inPending | behind) rfl
        · exact taken inPending
        · omega
      grind
  | case5 index pending token tokens notOpening notClosing hypothesis =>
      have wider : ∀ opening ∈ pending, opening < index + 1 := by grind
      rw [pendingAfter, if_neg notOpening, if_neg notClosing,
        hypothesis wider distinct, opens_cons_iff]
      simp [notOpening]

end

theorem isUnmatchedOpen_iff
    {tokens : List Token}
    {place : Nat} :
    IsUnmatchedOpen tokens place ↔ place ∈ pendingAfter 0 [] tokens := by
  rw [mem_pendingAfter_iff (by simp) List.nodup_nil]
  simp [IsUnmatchedOpen, parenPairs]

/-! ## Parts that close what they open -/

/-- Of `inner` parentheses that are open before some tokens and those that the
tokens open, `outer` are open behind them; no other parenthesis is closed. -/
inductive LeavesOpen : Nat → List Token → Nat → Prop
  | nil
      {inner : Nat} :
      LeavesOpen inner [] inner
  | opening
      {inner outer : Nat}
      {token : Token}
      {tokens : List Token}
      (isOpening : token.kind = .openParen)
      (later : LeavesOpen (inner + 1) tokens outer) :
      LeavesOpen inner (token :: tokens) outer
  | closing
      {inner outer : Nat}
      {token : Token}
      {tokens : List Token}
      (isClosing : token.kind = .closeParen)
      (later : LeavesOpen inner tokens outer) :
      LeavesOpen (inner + 1) (token :: tokens) outer
  | other
      {inner outer : Nat}
      {token : Token}
      {tokens : List Token}
      (notOpening : token.kind ≠ .openParen)
      (notClosing : token.kind ≠ .closeParen)
      (later : LeavesOpen inner tokens outer) :
      LeavesOpen inner (token :: tokens) outer

/-- Every parenthesis among some tokens matches another one of them. -/
abbrev Balanced (tokens : List Token) : Prop :=
  LeavesOpen 0 tokens 0

/-- No parenthesis is open behind some tokens; a closing one that matches none
may be among them. -/
def Closed (tokens : List Token) : Prop :=
  ∀ index, pendingAfter index [] tokens = []

namespace LeavesOpen

variable {tokens : List Token} {outer : Nat}

/-- Parentheses further out take no part in the pairs. -/
theorem parenPairsFrom_append_pending
    (inner : List Nat)
    (leaves : LeavesOpen inner.length tokens outer)
    (index : Nat)
    (pending : List Nat) :
    parenPairsFrom index (inner ++ pending) tokens =
      parenPairsFrom index inner tokens := by
  generalize count_eq : inner.length = count at leaves
  induction leaves generalizing index inner with
  | nil => rfl
  | @opening count outer token tokens isOpening later hypothesis =>
      have counted : (index :: inner).length = count + 1 := by simp [count_eq]
      simp only [parenPairsFrom, if_pos isOpening]
      exact hypothesis _ (index + 1) counted
  | closing isClosing later hypothesis =>
      cases inner with
      | nil => simp at count_eq
      | cons opening inner =>
          have counted := Nat.succ.inj count_eq
          simp only [List.cons_append, parenPairsFrom, isClosing, reduceCtorEq,
            if_false, if_true, hypothesis _ (index + 1) counted]
  | other notOpening notClosing later hypothesis =>
      simp only [parenPairsFrom, if_neg notOpening, if_neg notClosing]
      exact hypothesis _ (index + 1) count_eq

/-- Parentheses further out stay open. -/
theorem pendingAfter_append_pending
    (inner : List Nat)
    (leaves : LeavesOpen inner.length tokens outer)
    (index : Nat)
    (pending : List Nat) :
    pendingAfter index (inner ++ pending) tokens =
        pendingAfter index inner tokens ++ pending ∧
      (pendingAfter index inner tokens).length = outer := by
  generalize count_eq : inner.length = count at leaves
  induction leaves generalizing index inner with
  | nil => exact ⟨rfl, count_eq⟩
  | @opening count outer token tokens isOpening later hypothesis =>
      have counted : (index :: inner).length = count + 1 := by simp [count_eq]
      simp only [pendingAfter, if_pos isOpening]
      exact hypothesis _ (index + 1) counted
  | closing isClosing later hypothesis =>
      cases inner with
      | nil => simp at count_eq
      | cons opening inner =>
          have counted := Nat.succ.inj count_eq
          simp only [List.cons_append, pendingAfter, isClosing, reduceCtorEq,
            if_false, if_true, List.tail_cons]
          exact hypothesis _ (index + 1) counted
  | other notOpening notClosing later hypothesis =>
      simp only [pendingAfter, if_neg notOpening, if_neg notClosing]
      exact hypothesis _ (index + 1) count_eq

theorem append
    {inner middle : Nat}
    {front back : List Token}
    (frontLeaves : LeavesOpen inner front middle)
    (backLeaves : LeavesOpen middle back outer) :
    LeavesOpen inner (front ++ back) outer := by
  induction frontLeaves with
  | nil => exact backLeaves
  | opening isOpening later hypothesis =>
      exact .opening isOpening (hypothesis backLeaves)
  | closing isClosing later hypothesis =>
      exact .closing isClosing (hypothesis backLeaves)
  | other notOpening notClosing later hypothesis =>
      exact .other notOpening notClosing (hypothesis backLeaves)

/-- More open parentheses before some tokens are as many more behind them. -/
theorem raise
    {inner : Nat}
    (leaves : LeavesOpen inner tokens outer)
    (further : Nat) :
    LeavesOpen (inner + further) tokens (outer + further) := by
  induction leaves with
  | nil => exact .nil
  | opening isOpening later hypothesis =>
      rw [Nat.add_right_comm] at hypothesis
      exact .opening isOpening hypothesis
  | closing isClosing later hypothesis =>
      rw [Nat.add_right_comm]
      exact .closing isClosing hypothesis
  | other notOpening notClosing later hypothesis =>
      exact .other notOpening notClosing hypothesis

/-- A group leaves open what was open before it. -/
theorem group
    {inner : Nat}
    {opening closing : Token}
    {contents back : List Token}
    (isOpening : opening.kind = .openParen)
    (balanced : LeavesOpen 0 contents 0)
    (isClosing : closing.kind = .closeParen)
    (backLeaves : LeavesOpen inner back outer) :
    LeavesOpen inner (opening :: (contents ++ closing :: back)) outer := by
  have inside := balanced.raise (inner + 1)
  rw [Nat.zero_add] at inside
  exact .opening isOpening (inside.append (.closing isClosing backLeaves))

end LeavesOpen

/-- Some tokens leave open what they open, or one of them closes the outermost
of the parentheses that are open before them. -/
theorem LeavesOpen.total
    (inner : Nat)
    (tokens : List Token) :
    (∃ outer, LeavesOpen inner tokens outer) ∨
      ∃ (contents behind : List Token) (closing : Token),
        tokens = contents ++ closing :: behind ∧
        LeavesOpen inner contents 0 ∧
        closing.kind = .closeParen := by
  induction tokens generalizing inner with
  | nil => exact Or.inl ⟨inner, .nil⟩
  | cons token tokens hypothesis =>
      have grow
          {rest : Nat}
          (leaves : ∀ {part outer}, LeavesOpen rest part outer →
            LeavesOpen inner (token :: part) outer) :
          (∃ outer, LeavesOpen inner (token :: tokens) outer) ∨
            ∃ (contents behind : List Token) (closing : Token),
              token :: tokens = contents ++ closing :: behind ∧
              LeavesOpen inner contents 0 ∧
              closing.kind = .closeParen := by
        rcases hypothesis rest with
          ⟨outer, later⟩ | ⟨contents, behind, closing, rfl, later, isClosing⟩
        · exact Or.inl ⟨outer, leaves later⟩
        · exact Or.inr
            ⟨token :: contents, behind, closing, rfl, leaves later, isClosing⟩
      by_cases isOpening : token.kind = .openParen
      · exact grow (.opening isOpening)
      · by_cases isClosing : token.kind = .closeParen
        · cases inner with
          | zero => exact Or.inr ⟨[], tokens, token, rfl, .nil, isClosing⟩
          | succ outer => exact grow (.closing isClosing)
        · exact grow (.other isOpening isClosing)

namespace Balanced

variable {tokens : List Token}

theorem parenPairsFrom_eq
    (balanced : Balanced tokens)
    (index : Nat)
    (pending : List Nat) :
    parenPairsFrom index pending tokens = parenPairsFrom index [] tokens :=
  LeavesOpen.parenPairsFrom_append_pending [] balanced index pending

theorem pendingAfter_eq
    (balanced : Balanced tokens)
    (index : Nat)
    (pending : List Nat) :
    pendingAfter index pending tokens = pending := by
  obtain ⟨append_eq, noneLeft⟩ :=
    LeavesOpen.pendingAfter_append_pending [] balanced index pending
  rw [List.nil_append, List.length_eq_zero_iff.mp noneLeft] at append_eq
  exact append_eq

theorem closed (balanced : Balanced tokens) : Closed tokens :=
  fun index => balanced.pendingAfter_eq index []

end Balanced

section

variable {front back contents : List Token} {opening closing token : Token}

theorem closed_nil : Closed [] :=
  fun _ => rfl

theorem closed_singleton (notOpening : token.kind ≠ .openParen) :
    Closed [token] := by
  intro index
  simp [pendingAfter, notOpening]

theorem Closed.append
    (frontClosed : Closed front)
    (backClosed : Closed back) :
    Closed (front ++ back) := by
  intro index
  rw [pendingAfter_append, frontClosed, backClosed]

theorem Closed.parenPairsFrom_append
    (closed : Closed front)
    (index : Nat)
    (back : List Token) :
    parenPairsFrom index [] (front ++ back) =
      parenPairsFrom index [] front ++
        parenPairsFrom (index + front.length) [] back := by
  rw [FilterLang.parenPairsFrom_append, closed]

/-- The pairs of a balanced list between parentheses, and what follows them. -/
theorem parenPairsFrom_group
    (isOpening : opening.kind = .openParen)
    (balanced : Balanced contents)
    (isClosing : closing.kind = .closeParen)
    (index : Nat)
    (back : List Token) :
    parenPairsFrom index [] (opening :: (contents ++ closing :: back)) =
      parenPairsFrom (index + 1) [] contents ++
        ⟨index, index + 1 + contents.length⟩ ::
          parenPairsFrom (index + 1 + contents.length + 1) [] back := by
  have notOpening : closing.kind ≠ .openParen := by simp [isClosing]
  rw [parenPairsFrom, if_pos isOpening, parenPairsFrom_append,
    balanced.pendingAfter_eq, balanced.parenPairsFrom_eq, parenPairsFrom,
    if_neg notOpening, if_pos isClosing]

theorem closed_group
    (isOpening : opening.kind = .openParen)
    (balanced : Balanced contents)
    (isClosing : closing.kind = .closeParen) :
    Closed (opening :: (contents ++ [closing])) := by
  intro index
  have notOpening : closing.kind ≠ .openParen := by simp [isClosing]
  rw [pendingAfter, if_pos isOpening, pendingAfter_append,
    balanced.pendingAfter_eq, pendingAfter, if_neg notOpening,
    if_pos isClosing]
  rfl

end

/-! ## Places in a list -/

/-- A pair of a list that has so many tokens before it. -/
def ParenPair.shift
    (offset : Nat)
    (pair : ParenPair) : ParenPair :=
  ⟨offset + pair.opening, offset + pair.closing⟩

theorem parenPairsFrom_shift
    (offset index : Nat)
    (pending : List Nat)
    (tokens : List Token) :
    parenPairsFrom (offset + index) (pending.map (offset + ·)) tokens =
      (parenPairsFrom index pending tokens).map (ParenPair.shift offset) := by
  fun_induction parenPairsFrom index pending tokens with
  | case1 => rfl
  | case2 index pending token tokens isOpening hypothesis =>
      simp only [parenPairsFrom, if_pos isOpening]
      exact hypothesis
  | case3 index token tokens notOpening isClosing hypothesis =>
      simp only [parenPairsFrom, if_neg notOpening, if_pos isClosing,
        List.map_nil]
      exact hypothesis
  | case4 index token tokens notOpening isClosing opening pending hypothesis =>
      simp only [parenPairsFrom, if_neg notOpening, if_pos isClosing,
        List.map_cons]
      exact congrArg _ hypothesis
  | case5 index pending token tokens notOpening notClosing hypothesis =>
      simp only [parenPairsFrom, if_neg notOpening, if_neg notClosing]
      exact hypothesis

theorem ParenPair.encloses_iff
    {pair : ParenPair}
    {place : Nat} :
    pair.encloses place ↔ pair.opening < place ∧ place < pair.closing := by
  rw [encloses, Bool.and_eq_true, decide_eq_true_iff, decide_eq_true_iff]

theorem ParenPair.encloses_shift
    (offset place : Nat)
    (pair : ParenPair) :
    (pair.shift offset).encloses (offset + place) = pair.encloses place := by
  simp [encloses, shift]

theorem Closed.parenPairs_append
    {front : List Token}
    (closed : Closed front)
    (back : List Token) :
    parenPairs (front ++ back) =
      parenPairs front ++ (parenPairs back).map (.shift front.length) := by
  rw [parenPairs, closed.parenPairsFrom_append, Nat.zero_add, parenPairs,
    parenPairs, ← parenPairsFrom_shift]
  rfl

theorem nestingLevel_eq_zero_iff
    {tokens : List Token}
    {place : Nat} :
    nestingLevel tokens place = 0 ↔
      ∀ pair ∈ parenPairs tokens, ¬pair.encloses place := by
  rw [nestingLevel, List.countP_eq_zero]

section

variable {front back contents : List Token} {opening closing token : Token}

/-- No pair encloses a place beside its tokens, nor the first or the last of
them. -/
theorem not_encloses_of_beside
    {index place : Nat}
    {tokens : List Token}
    {pair : ParenPair}
    (member : pair ∈ parenPairsFrom index [] tokens)
    (beside : place ≤ index ∨ index + tokens.length ≤ place + 1) :
    ¬pair.encloses place := by
  have bounds := bounds_of_mem_parenPairsFrom member
  simp only [List.not_mem_nil, false_or] at bounds
  rw [ParenPair.encloses_iff]
  omega

/-- No pair encloses the place behind a closed list. -/
theorem Closed.nestingLevel_behind
    (closed : Closed front)
    (back : List Token) :
    nestingLevel (front ++ back) front.length = 0 := by
  rw [nestingLevel_eq_zero_iff]
  intro pair member
  rw [parenPairs, closed.parenPairsFrom_append, List.mem_append] at member
  rcases member with inFront | inBack
  · exact not_encloses_of_beside inFront (Or.inr (by omega))
  · exact not_encloses_of_beside inBack (Or.inl (by omega))

/-- No pair encloses the last token of a closed list. -/
theorem Closed.nestingLevel_last
    (closed : Closed (front ++ [token]))
    (back : List Token) :
    nestingLevel (front ++ token :: back) front.length = 0 := by
  rw [nestingLevel_eq_zero_iff]
  intro pair member
  rw [List.append_cons, parenPairs, closed.parenPairsFrom_append,
    List.mem_append] at member
  rcases member with inFront | inBack
  · exact not_encloses_of_beside inFront (Or.inr (by simp))
  · exact not_encloses_of_beside inBack (Or.inl (by simp))

/-- The pairs of a list of which a closed part stands before a balanced part
between parentheses. -/
theorem parenPairs_group
    (closed : Closed front)
    (isOpening : opening.kind = .openParen)
    (balanced : Balanced contents)
    (isClosing : closing.kind = .closeParen)
    (back : List Token) :
    parenPairs (front ++ opening :: (contents ++ closing :: back)) =
      parenPairs front ++
        ((parenPairs contents).map (.shift (front.length + 1)) ++
          ⟨front.length, front.length + 1 + contents.length⟩ ::
            parenPairsFrom (front.length + 1 + contents.length + 1) []
              back) := by
  rw [parenPairs, closed.parenPairsFrom_append,
    parenPairsFrom_group isOpening balanced isClosing, Nat.zero_add,
    parenPairs, parenPairs, ← parenPairsFrom_shift]
  rfl

/-- The only outermost pair of a group is that around its contents. -/
theorem outermost_pair_of_group
    (isOpening : opening.kind = .openParen)
    (balanced : Balanced contents)
    (isClosing : closing.kind = .closeParen)
    {pair : ParenPair}
    (member : pair ∈ parenPairs (opening :: (contents ++ [closing])))
    (outermost : ∀ other ∈ parenPairs (opening :: (contents ++ [closing])),
      ¬other.encloses pair.opening) :
    pair = ⟨0, contents.length + 1⟩ := by
  have pairs_eq :
      parenPairs (opening :: (contents ++ [closing])) =
        (parenPairs contents).map (.shift 1) ++ [⟨0, contents.length + 1⟩] := by
    rw [Nat.add_comm contents.length 1]
    exact parenPairs_group closed_nil isOpening balanced isClosing []
  rw [pairs_eq] at member outermost
  rcases List.mem_append.mp member with inside | around
  · obtain ⟨inner, innerMember, rfl⟩ := List.mem_map.mp inside
    obtain ⟨-, -, closing_lt⟩ := bounds_of_mem_parenPairsFrom innerMember
    have inOrder := opening_lt_closing (by simp) innerMember
    refine absurd ?_ (outermost ⟨0, contents.length + 1⟩ (by simp))
    simp only [ParenPair.encloses_iff, ParenPair.shift]
    omega
  · exact List.mem_singleton.mp around

/-- A pair of parentheses encloses the places between them once more. -/
theorem nestingLevel_group
    (closed : Closed front)
    (isOpening : opening.kind = .openParen)
    (balanced : Balanced contents)
    (isClosing : closing.kind = .closeParen)
    (back : List Token)
    {place : Nat}
    (place_lt : place < contents.length) :
    nestingLevel (front ++ opening :: (contents ++ closing :: back))
        (front.length + 1 + place) =
      nestingLevel contents place + 1 := by
  have noneBefore :
      (parenPairs front).countP (·.encloses (front.length + 1 + place)) = 0 :=
    List.countP_eq_zero.mpr fun pair member =>
      not_encloses_of_beside member (Or.inr (by omega))
  have noneBehind :
      (parenPairsFrom (front.length + 1 + contents.length + 1) [] back).countP
        (·.encloses (front.length + 1 + place)) = 0 :=
    List.countP_eq_zero.mpr fun pair member =>
      not_encloses_of_beside member (Or.inl (by omega))
  have inside :
      ((parenPairs contents).map
          (ParenPair.shift (front.length + 1))).countP
            (·.encloses (front.length + 1 + place)) =
        nestingLevel contents place := by
    rw [List.countP_map, nestingLevel]
    congr 1
    funext pair
    exact ParenPair.encloses_shift _ _ pair
  have around :
      ParenPair.encloses
        ⟨front.length, front.length + 1 + contents.length⟩
          (front.length + 1 + place) := by
    simp only [ParenPair.encloses_iff]
    omega
  rw [nestingLevel, parenPairs_group closed isOpening balanced isClosing,
    List.countP_append, List.countP_append, List.countP_cons, noneBefore,
    noneBehind, inside, if_pos around]
  omega

/-- The tokens of a list up to a pair's closing parenthesis decide what stands
between its parentheses. -/
theorem ParenPair.contents_append
    {pair : ParenPair}
    (closing_le : pair.closing ≤ contents.length)
    (back : List Token) :
    pair.contents (contents ++ back) = pair.contents contents := by
  rw [ParenPair.contents, List.take_append_of_le_length closing_le,
    ParenPair.contents]

theorem ParenPair.contents_shift
    (front back : List Token)
    (pair : ParenPair) :
    (pair.shift front.length).contents (front ++ back) =
      pair.contents back := by
  rw [ParenPair.contents, shift, List.take_length_add_append, Nat.add_assoc,
    List.drop_length_add_append, ParenPair.contents]

/-- Between its parentheses a group has its contents. -/
theorem contents_group
    (front back contents : List Token)
    (opening closing : Token) :
    ParenPair.contents ⟨front.length, front.length + 1 + contents.length⟩
        (front ++ opening :: (contents ++ closing :: back)) =
      contents := by
  have atStart :
      ParenPair.contents ⟨0, contents.length + 1⟩
          (opening :: (contents ++ closing :: back)) = contents := by
    simp [ParenPair.contents]
  have shifted := ParenPair.contents_shift front
    (opening :: (contents ++ closing :: back)) ⟨0, contents.length + 1⟩
  rw [atStart, ParenPair.shift, Nat.add_comm contents.length 1,
    ← Nat.add_assoc] at shifted
  exact shifted

/-- The pair of parentheses around the contents of an outermost group. -/
theorem pair_of_group
    (closed : Closed front)
    (isOpening : opening.kind = .openParen)
    (balanced : Balanced contents)
    (isClosing : closing.kind = .closeParen)
    (back : List Token) :
    ∃ pair ∈ parenPairs (front ++ opening :: (contents ++ closing :: back)),
      pair.opening = front.length ∧
      pair.closing = front.length + 1 + contents.length ∧
      pair.contents (front ++ opening :: (contents ++ closing :: back)) =
        contents := by
  refine ⟨⟨front.length, front.length + 1 + contents.length⟩, ?_, rfl, rfl,
    contents_group front back contents opening closing⟩
  rw [parenPairs_group closed isOpening balanced isClosing]
  simp

/-- A pair of the contents of a group, one level further in. -/
theorem pair_inside_group
    (closed : Closed front)
    (isOpening : opening.kind = .openParen)
    (balanced : Balanced contents)
    (isClosing : closing.kind = .closeParen)
    (back : List Token)
    {inner : ParenPair}
    (member : inner ∈ parenPairs contents) :
    ∃ pair ∈ parenPairs (front ++ opening :: (contents ++ closing :: back)),
      nestingLevel (front ++ opening :: (contents ++ closing :: back))
          pair.opening =
        nestingLevel contents inner.opening + 1 ∧
      pair.contents (front ++ opening :: (contents ++ closing :: back)) =
        inner.contents contents := by
  have inOrder := opening_lt_closing (by simp) member
  obtain ⟨-, -, closing_lt⟩ := bounds_of_mem_parenPairsFrom member
  rw [Nat.zero_add] at closing_lt
  refine ⟨inner.shift (front.length + 1), ?_, ?_, ?_⟩
  · rw [parenPairs_group closed isOpening balanced isClosing]
    exact List.mem_append_right _
      (List.mem_append_left _ (List.mem_map_of_mem member))
  · exact nestingLevel_group closed isOpening balanced isClosing back
      (Nat.lt_trans inOrder closing_lt)
  · have shifted := ParenPair.contents_shift (front ++ [opening])
      (contents ++ closing :: back) inner
    rw [ParenPair.contents_append (Nat.le_of_lt closing_lt),
      List.append_assoc, List.length_append] at shifted
    exact shifted

/-! ## Parentheses that match no other -/

theorem Closed.not_isUnmatchedOpen
    (closed : Closed front)
    (place : Nat) :
    ¬IsUnmatchedOpen front place := by
  rw [isUnmatchedOpen_iff, closed]
  exact List.not_mem_nil

/-- Among the tokens of a closed list every opening parenthesis is matched. -/
theorem Closed.length_le_of_isUnmatchedOpen
    (closed : Closed front)
    {place : Nat}
    (unmatched : IsUnmatchedOpen (front ++ back) place) :
    front.length ≤ place := by
  rw [isUnmatchedOpen_iff, pendingAfter_append, closed, Nat.zero_add,
    mem_pendingAfter_iff (by simp) List.nodup_nil] at unmatched
  rcases unmatched.1 with inPending | ⟨le, -⟩
  · simp at inPending
  · exact le

/-- The first opening parenthesis that matches no other stands behind a closed
list, and no token behind it closes it. -/
theorem isFirstUnmatchedOpen
    {outer : Nat}
    (closed : Closed front)
    (isOpening : opening.kind = .openParen)
    (leaves : LeavesOpen 0 back outer) :
    IsUnmatchedOpen (front ++ opening :: back) front.length ∧
      ∀ other < front.length,
        ¬IsUnmatchedOpen (front ++ opening :: back) other := by
  constructor
  · obtain ⟨append_eq, -⟩ := LeavesOpen.pendingAfter_append_pending [] leaves
      (front.length + 1) [front.length]
    rw [List.nil_append] at append_eq
    rw [isUnmatchedOpen_iff, pendingAfter_append, closed, Nat.zero_add,
      pendingAfter, if_pos isOpening, append_eq]
    exact List.mem_append_right _ (List.mem_singleton_self _)
  · intro other less unmatched
    have le := closed.length_le_of_isUnmatchedOpen unmatched
    omega

/-- A closing parenthesis behind a closed list matches no other. -/
theorem Closed.closing_ne
    (closed : Closed front)
    (isClosing : closing.kind = .closeParen)
    (back : List Token) :
    ∀ pair ∈ parenPairs (front ++ closing :: back),
      pair.closing ≠ front.length := by
  intro pair member
  have notOpening : closing.kind ≠ .openParen := by simp [isClosing]
  rw [parenPairs, closed.parenPairsFrom_append, parenPairsFrom,
    if_neg notOpening, if_pos isClosing, List.mem_append] at member
  rcases member with inFront | inBack
  · have bounds := bounds_of_mem_parenPairsFrom inFront
    omega
  · have bounds := bounds_of_mem_parenPairsFrom inBack
    omega

end

end FilterLang
