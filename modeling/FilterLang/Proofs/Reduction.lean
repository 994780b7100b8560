import FilterLang.Proofs.SententialForm

/-!
# Reductions keep what a row stands for

A phase is faithful when each of its steps leaves a row that stands for the same
expressions, and when no step fails on a row that stands for an expression
within the depth limit. The three kinds of phase are faithful on the rows that
they meet: tighter operators have been used up, and the nodes made so far are
phrases of the levels that the grammar allows at their places.
-/

namespace FilterLang

/-- A subexpression carries its depth, and the limit allows for it. -/
def Subtree.Sound
    (limit : Nat)
    (subtree : Subtree) : Prop :=
  subtree.depth = subtree.tree.depth ∧ subtree.depth ≤ limit

theorem Subtree.Sound.max_depth_lt
    {limit bound : Nat}
    {left right : Subtree}
    (leftSound : left.Sound limit)
    (rightSound : right.Sound limit)
    (within : max left.tree.depth right.tree.depth < bound) :
    max left.depth right.depth < bound := by
  rw [leftSound.1, rightSound.1]
  exact within

/-- A slot fits into a row from which the tokens of rank `used` or less have
been used up, and in which nodes are phrases of rank `made` or less. -/
def Slot.Fits (limit used made : Nat) : Slot → Prop
  | token found => used < found.kind.rank
  | node subtree =>
      subtree.Sound limit ∧ subtree.tree.level.rank ≤ made
  | group subtree => subtree.Sound limit

namespace Subtree

theorem sound_leaf
    {limit : Nat}
    {tree : Expr}
    (isLeaf : tree.depth = 0) :
    Sound limit ⟨tree, 0⟩ :=
  ⟨isLeaf.symm, Nat.zero_le limit⟩

theorem sound_not
    {limit : Nat}
    {child : Subtree}
    (sound : child.Sound limit)
    (within : child.depth < limit) :
    Sound limit ⟨.not child.tree, child.depth + 1⟩ := by
  refine ⟨?_, within⟩
  rw [Expr.depth_not, sound.1]

theorem sound_binary
    {limit : Nat}
    {op : BinaryOp}
    {left right : Subtree}
    (leftSound : left.Sound limit)
    (rightSound : right.Sound limit)
    (within : max left.depth right.depth < limit) :
    Sound limit ⟨.binary op left.tree right.tree,
      max left.depth right.depth + 1⟩ := by
  refine ⟨?_, within⟩
  rw [Expr.depth_binary, leftSound.1, rightSound.1]

end Subtree

/-- Comparisons make the tightest phrases. -/
theorem Level.comparison_rank_le (level : Level) :
    Level.comparison.rank ≤ level.rank := by
  cases level <;> decide

/-- The only tokens of the rank of a level are its operators. -/
theorem TokenKind.comparison_rank_lt
    {kind : TokenKind}
    (used : 0 < kind.rank)
    (noComparison : ∀ comparison, kind ≠ .comparison comparison) :
    Level.comparison.rank < kind.rank := by
  cases kind with
  | operator operator =>
      cases operator with
      | not => decide
      | binary op =>
          cases op with
          | comparison comparison => exact absurd rfl (noComparison comparison)
          | and => decide
          | or => decide
  | identifier => exact absurd used (Nat.lt_irrefl _)
  | literal => exact absurd used (Nat.lt_irrefl _)
  | openParen => exact absurd used (Nat.lt_irrefl _)
  | closeParen => decide

theorem TokenKind.not_rank_lt
    {kind : TokenKind}
    (used : Level.comparison.rank < kind.rank)
    (notNegation : kind ≠ .not) :
    Level.not.rank < kind.rank := by
  cases kind with
  | operator operator =>
      cases operator with
      | not => exact absurd rfl notNegation
      | binary op =>
          cases op with
          | comparison kind => exact absurd used (Nat.lt_irrefl _)
          | and => decide
          | or => decide
  | identifier => exact absurd used (by decide)
  | literal => exact absurd used (by decide)
  | openParen => exact absurd used (by decide)
  | closeParen => decide

theorem TokenKind.joined_rank_lt
    {kind : TokenKind}
    {op : BinaryOp}
    {below level : Level}
    (joins : op.Joins below level)
    (used : below.rank < kind.rank)
    (notOperator : kind ≠ .operator (.binary op)) :
    level.rank < kind.rank := by
  cases kind with
  | operator operator =>
      cases operator with
      | not => cases joins <;> exact absurd used (by decide)
      | binary other =>
          cases joins <;> cases other <;>
            simp_all [TokenKind.rank, Level.rank, BinaryOp.level]
  | identifier => exact absurd used (Nat.not_lt_zero _)
  | literal => exact absurd used (Nat.not_lt_zero _)
  | openParen => exact absurd used (Nat.not_lt_zero _)
  | closeParen => cases joins <;> decide

namespace Slot

theorem kind_ne_not
    {found : Token}
    (unselected : (token found).negation? = none) :
    found.kind ≠ .not := by
  intro isNot
  rw [negation?_eq_some_iff.mpr ⟨rfl, isNot⟩] at unselected
  simp at unselected

theorem kind_ne_operator
    {found : Token}
    {ops : List BinaryOp}
    {op : BinaryOp}
    (unselected : (token found).binaryOp? ops = none)
    (member : op ∈ ops) :
    found.kind ≠ .operator (.binary op) := by
  intro isOperator
  rw [binaryOp?_eq_some_iff.mpr ⟨member, found, rfl, isOperator⟩] at unselected
  simp at unselected

theorem Fits.mono
    {limit used made usedBefore madeAfter : Nat}
    {slot : Slot}
    (fits : slot.Fits limit used made)
    (used_le : usedBefore ≤ used)
    (made_le : made ≤ madeAfter) :
    slot.Fits limit usedBefore madeAfter := by
  cases slot with
  | token found => exact Nat.lt_of_le_of_lt used_le fits
  | node subtree => exact ⟨fits.1, Nat.le_trans fits.2 made_le⟩
  | group subtree => exact fits

theorem symbol_node (subtree : Subtree) :
    (node subtree).symbol =
      if subtree.tree.isLeaf then
        .leaf subtree.tree
      else
        .phrase subtree.tree.level subtree.tree := rfl

/-- A slot still fits when more tokens have been used up. -/
theorem Fits.use
    {limit used made usedAfter : Nat}
    {slot : Slot}
    (fits : slot.Fits limit used made)
    (usedUp : ∀ found, slot = token found → usedAfter < found.kind.rank) :
    slot.Fits limit usedAfter made := by
  cases slot with
  | token found => exact usedUp found rfl
  | node subtree => exact fits
  | group subtree => exact fits

@[simp] theorem symbol_binary
    (op : BinaryOp)
    (left right : Expr)
    (depth : Nat) :
    (node ⟨.binary op left right, depth⟩).symbol =
      .phrase op.level (.binary op left right) := rfl

@[simp] theorem symbol_not
    (child : Expr)
    (depth : Nat) :
    (node ⟨.not child, depth⟩).symbol = .phrase .not (.not child) := rfl

@[simp] theorem symbol_group (subtree : Subtree) :
    (group subtree).symbol = .phrase .comparison subtree.tree := rfl

theorem symbol_operator
    {found : Token}
    {operator : Operator}
    (isOperator : found.kind = .operator operator) :
    (token found).symbol = .mark (.operator operator) :=
  Token.symbol_of_kind isOperator (by simp) (by simp)

theorem Fits.sound_of_operand
    {limit used made : Nat}
    {operator : Operator}
    {side : Side}
    {slot : Slot}
    {subtree : Subtree}
    (fits : slot.Fits limit used made)
    (taken : slot.operand operator side = .ok subtree) :
    subtree.Sound limit := by
  rcases operand_eq_ok_iff.mp taken with ⟨rfl, -⟩ | ⟨rfl, -⟩
  · exact fits.1
  · exact fits

/-- A slot that is seen as a mark holds a token. -/
theorem eq_token_of_mark
    {slot : Slot}
    {kind : TokenKind}
    (isMark : slot.symbol = .mark kind) :
    ∃ found, slot = token found ∧ found.kind = kind := by
  cases slot with
  | token found => exact ⟨found, rfl, Token.kind_of_symbol_eq_mark isMark⟩
  | node subtree =>
      rw [symbol_node] at isMark
      split at isMark <;> simp at isMark
  | group subtree => simp at isMark

/-- The operand of a comparison is seen as a bare leaf. -/
theorem symbol_of_operand
    {operator : Operator}
    {side : Side}
    {slot : Slot}
    {subtree : Subtree}
    (isComparison : operator.isComparison)
    (taken : slot.operand operator side = .ok subtree) :
    slot.symbol = .leaf subtree.tree := by
  rcases operand_eq_ok_iff.mp taken with ⟨rfl, leafTree⟩ | ⟨-, different⟩
  · rw [symbol_node, if_pos (leafTree isComparison)]
  · rw [isComparison] at different
    exact absurd different Bool.true_eq_false.mp

/-- An operand stands for its expression at any level that the nodes of the row
do not exceed. -/
theorem Fits.standsFor
    {limit used made : Nat}
    {operator : Operator}
    {side : Side}
    {slot : Slot}
    {subtree : Subtree}
    {level : Level}
    {nesting : Nat}
    (fits : slot.Fits limit used made)
    (taken : slot.operand operator side = .ok subtree)
    (made_le : made ≤ level.rank) :
    StandsFor level [slot.symbol] subtree.tree nesting := by
  rcases operand_eq_ok_iff.mp taken with ⟨rfl, -⟩ | ⟨rfl, -⟩
  · rw [symbol_node]
    split
    · exact StandsFor.leaf.raise level.comparison_rank_le
    · exact StandsFor.phrase.raise (Nat.le_trans fits.2 made_le)
  · exact StandsFor.phrase.raise level.comparison_rank_le

/-- Where no name and no value is left as a token, a bare leaf is a node. -/
theorem Fits.eq_node
    {limit used made : Nat}
    {slot : Slot}
    {tree : Expr}
    (fits : slot.Fits limit used made)
    (isLeaf : slot.symbol = .leaf tree) :
    ∃ depth, slot = node ⟨tree, depth⟩ ∧ tree.isLeaf := by
  cases slot with
  | token found =>
      have leafToken := Token.symbol_eq_leaf_iff.mp isLeaf
      unfold Token.leaf? at leafToken
      simp only [Fits] at fits
      cases kind : found.kind <;> simp_all [TokenKind.rank]
  | node subtree =>
      rw [symbol_node] at isLeaf
      split at isLeaf
      · rename_i leafTree
        simp only [Symbol.leaf.injEq] at isLeaf
        subst isLeaf
        exact ⟨subtree.depth, rfl, leafTree⟩
      · simp at isLeaf
  | group subtree => simp at isLeaf

/-- Where no name and no value is left as a token, a symbol that stands for an
expression belongs to a slot that holds it. -/
theorem Fits.eq_subexpression
    {limit used made : Nat}
    {slot : Slot}
    {tree : Expr}
    (fits : slot.Fits limit used made)
    (single : slot.symbol = .leaf tree ∨
      ∃ level, slot.symbol = .phrase level tree) :
    ∃ depth, slot = node ⟨tree, depth⟩ ∨ slot = group ⟨tree, depth⟩ := by
  rcases single with isLeaf | ⟨level, isPhrase⟩
  · obtain ⟨depth, rfl, -⟩ := fits.eq_node isLeaf
    exact ⟨depth, Or.inl rfl⟩
  · cases slot with
    | token found => exact absurd isPhrase Token.symbol_ne_phrase
    | node subtree =>
        rw [symbol_node] at isPhrase
        split at isPhrase
        · simp at isPhrase
        · simp only [Symbol.phrase.injEq] at isPhrase
          obtain ⟨-, rfl⟩ := isPhrase
          exact ⟨subtree.depth, Or.inl rfl⟩
    | group subtree =>
        simp only [symbol_group, Symbol.phrase.injEq] at isPhrase
        obtain ⟨-, rfl⟩ := isPhrase
        exact ⟨subtree.depth, Or.inr rfl⟩

/-- Such a slot is an operand of any operator but a comparison. -/
theorem Fits.operand
    {limit used made : Nat}
    {slot : Slot}
    {tree : Expr}
    (operator : Operator)
    (fits : slot.Fits limit used made)
    (single : slot.symbol = .leaf tree ∨
      ∃ level, slot.symbol = .phrase level tree)
    (notComparison : operator.isComparison = false)
    (side : Side) :
    ∃ depth, slot.operand operator side = .ok ⟨tree, depth⟩ := by
  obtain ⟨depth, rfl | rfl⟩ := fits.eq_subexpression single
  · refine ⟨depth, operand_eq_ok_iff.mpr (Or.inl ⟨rfl, ?_⟩)⟩
    simp [notComparison]
  · exact ⟨depth, operand_eq_ok_iff.mpr (Or.inr ⟨rfl, notComparison⟩)⟩

end Slot

namespace Row

@[simp] theorem form_cons (slot : Slot) (row : Row) :
    form (slot :: row) = slot.symbol :: form row := rfl

@[simp] theorem form_append (front back : Row) :
    form (front ++ back) = form front ++ form back :=
  List.map_append

/-- The last symbol of a form belongs to the last slot. -/
theorem form_eq_append_singleton
    {row : Row}
    {form : List Symbol}
    {symbol : Symbol}
    (equal : Row.form row = form ++ [symbol]) :
    ∃ (front : Row) (slot : Slot),
      row = front ++ [slot] ∧
      Row.form front = form ∧
      slot.symbol = symbol := by
  obtain ⟨front, back, rfl, front_eq, back_eq⟩ :=
    List.map_eq_append_iff.mp equal
  obtain ⟨slot, rfl, slot_eq⟩ := List.map_eq_singleton_iff.mp back_eq
  exact ⟨front, slot, rfl, front_eq, slot_eq⟩

/-- The first symbol of a form belongs to the first slot. -/
theorem form_eq_cons
    {row : Row}
    {form : List Symbol}
    {symbol : Symbol}
    (equal : Row.form row = symbol :: form) :
    ∃ (slot : Slot) (back : Row),
      row = slot :: back ∧
      slot.symbol = symbol ∧
      Row.form back = form := by
  obtain ⟨slot, back, rfl, slot_eq, back_eq⟩ := List.map_eq_cons_iff.mp equal
  exact ⟨slot, back, rfl, slot_eq, back_eq⟩

/-- A mark in the form of a row belongs to a token. -/
theorem exists_token_of_mark_mem_form
    {row : Row}
    {kind : TokenKind}
    (member : Symbol.mark kind ∈ form row) :
    ∃ found, Slot.token found ∈ row ∧ found.kind = kind := by
  obtain ⟨slot, slotMember, isMark⟩ := List.mem_map.mp member
  obtain ⟨found, rfl, isKind⟩ := Slot.eq_token_of_mark isMark
  exact ⟨found, slotMember, isKind⟩

/-- Where opening parentheses have been used up, none is in the form. -/
theorem openParen_not_mem_form
    {limit used made : Nat}
    {row : Row}
    (fits : ∀ slot ∈ row, slot.Fits limit used made) :
    Symbol.mark .openParen ∉ form row := by
  intro member
  obtain ⟨found, foundMember, isOpening⟩ := exists_token_of_mark_mem_form member
  have positive := fits _ foundMember
  rw [Slot.Fits, isOpening] at positive
  exact Nat.not_lt_zero _ positive

/-- A row that stands for an expression, with no operator left that could make
a phrase of its level, is a single slot. -/
theorem eq_singleton
    {level : Level}
    {row : Row}
    {tree : Expr}
    {nesting : Nat}
    (derived : StandsFor level row.form tree nesting)
    (loose : ∀ found, Slot.token found ∈ row →
      level.rank < found.kind.rank) :
    ∃ slot, row = [slot] ∧
      (slot.symbol = .leaf tree ∨
        ∃ inner, slot.symbol = .phrase inner tree) := by
  have looseMarks :
      ∀ kind, Symbol.mark kind ∈ form row → level.rank < kind.rank := by
    intro kind member
    obtain ⟨found, foundMember, rfl⟩ := exists_token_of_mark_mem_form member
    exact loose found foundMember
  rcases derived.eq_singleton looseMarks with
    isLeaf | ⟨inner, isPhrase, -⟩
  · obtain ⟨slot, rfl, symbol_eq⟩ := List.map_eq_singleton_iff.mp isLeaf
    exact ⟨slot, rfl, Or.inl symbol_eq⟩
  · obtain ⟨slot, rfl, symbol_eq⟩ := List.map_eq_singleton_iff.mp isPhrase
    exact ⟨slot, rfl, Or.inr ⟨inner, symbol_eq⟩⟩

end Row

namespace Phase

/-- A phase keeps what the rows with a given property stand for, and does not
fail on a row that stands for an expression within the limit. -/
structure Faithful
    (limit : Nat)
    (phase : Phase)
    (Allowed : Row → Prop) : Prop where
  /-- Steps lead from allowed rows to allowed rows. -/
  preserved : ∀ {row next}, Allowed row → phase.Steps limit row next →
    Allowed next
  /-- A step leads to nothing new. -/
  sound : ∀ {row next tree nesting}, Allowed row →
    phase.Steps limit row next →
    StandsFor .or next.form tree nesting → StandsFor .or row.form tree nesting
  /-- Nothing is lost: the phase has ended, or a step succeeds. -/
  complete : ∀ {row tree nesting}, Allowed row →
    StandsFor .or row.form tree nesting → tree.depth ≤ limit →
    phase.step? limit row = none ∨
      ∃ next, phase.Steps limit row next ∧
        StandsFor .or next.form tree nesting

variable {limit : Nat} {phase : Phase} {Allowed : Row → Prop}

/-- A step brings no token into a row. -/
theorem Steps.token_mem
    {row next : Row}
    (steps : phase.Steps limit row next)
    {found : Token}
    (member : Slot.token found ∈ next) :
    Slot.token found ∈ row := by
  cases steps with
  | binary =>
      simp only [List.mem_append, List.mem_cons, reduceCtorEq,
        false_or] at member
      rcases member with inFront | inBack
      · simp [inFront]
      · simp [inBack]
  | negation =>
      simp only [List.mem_append, List.mem_cons, reduceCtorEq,
        false_or] at member
      rcases member with inFront | inBack
      · simp [inFront]
      · simp [inBack]

/-- A faithful phase stays faithful where all tokens have some property. -/
theorem Faithful.withTokens
    (faithful : phase.Faithful limit Allowed)
    (property : Token → Prop) :
    phase.Faithful limit (fun row => Allowed row ∧
      ∀ found, Slot.token found ∈ row → property found) where
  preserved := by
    rintro row next ⟨allowed, tokens⟩ steps
    refine ⟨faithful.preserved allowed steps, ?_⟩
    intro found member
    exact tokens found (steps.token_mem member)
  sound := fun allowed steps derived => faithful.sound allowed.1 steps derived
  complete := fun allowed derived within =>
    faithful.complete allowed.1 derived within

/-- A faithful phase that ends has lost and gained nothing. -/
theorem Faithful.of_exhaust
    (faithful : phase.Faithful limit Allowed)
    {row final : Row}
    (allowed : Allowed row)
    (exhausted : phase.exhaust limit row = .ok final) :
    Allowed final ∧ phase.step? limit final = none ∧
      ∀ tree nesting, StandsFor .or final.form tree nesting →
        StandsFor .or row.form tree nesting := by
  fun_induction exhaust limit row phase with
  | case1 row ended =>
      simp only [Except.ok.injEq] at exhausted
      subst exhausted
      exact ⟨allowed, ended, fun tree nesting derived => derived⟩
  | case2 row fault stepped => simp at exhausted
  | case3 row next stepped hypothesis =>
      have steps := step?_eq_some_ok_iff.mp stepped
      obtain ⟨finalAllowed, ended, back⟩ :=
        hypothesis (faithful.preserved allowed steps) exhausted
      refine ⟨finalAllowed, ended, ?_⟩
      intro tree nesting derived
      exact faithful.sound allowed steps (back tree nesting derived)

/-- A faithful phase ends on a row that stands for an expression within the
limit. -/
theorem Faithful.exhaust_of_standsFor
    (faithful : phase.Faithful limit Allowed)
    {row : Row}
    {tree : Expr}
    {nesting : Nat}
    (allowed : Allowed row)
    (derived : StandsFor .or row.form tree nesting)
    (within : tree.depth ≤ limit) :
    ∃ final, phase.exhaust limit row = .ok final ∧
      StandsFor .or final.form tree nesting := by
  fun_induction exhaust limit row phase with
  | case1 row ended => exact ⟨row, rfl, derived⟩
  | case2 row fault stepped =>
      rcases faithful.complete allowed derived within with
        ended | ⟨next, steps, -⟩
      · rw [ended] at stepped
        simp at stepped
      · rw [step?_eq_some_ok_iff.mpr steps] at stepped
        simp at stepped
  | case3 row next stepped hypothesis =>
      rcases faithful.complete allowed derived within with
        ended | ⟨other, steps, nextDerived⟩
      · rw [ended] at stepped
        simp at stepped
      · rw [step?_eq_some_ok_iff.mpr steps, Option.some.injEq,
          Except.ok.injEq] at stepped
        subst stepped
        exact hypothesis (faithful.preserved allowed steps) nextDerived

/-! ## Comparisons -/

/-- The operands of the first comparison are bare leaves on both sides of it. -/
theorem complete_comparisons
    {limit : Nat}
    {kinds : List Comparison}
    {row : Row}
    {tree : Expr}
    {nesting : Nat}
    (fits : ∀ slot ∈ row, slot.Fits limit 0 1)
    (derived : StandsFor .or row.form tree nesting)
    (within : tree.depth ≤ limit) :
    (binary (kinds.map BinaryOp.comparison)).step? limit row = none ∨
      ∃ next, (binary (kinds.map BinaryOp.comparison)).Steps limit row next ∧
        StandsFor .or next.form tree nesting := by
  rcases step?_binary_cases limit (kinds.map BinaryOp.comparison) row with
    ended | ⟨op, operator, front, back, member, isOperator, rfl, leftmost⟩
  · exact Or.inl ended
  · right
    obtain ⟨kind, -, rfl⟩ := List.mem_map.mp member
    rw [Row.form_append, Row.form_cons,
      Slot.symbol_operator isOperator] at derived
    obtain ⟨outer, rest, left, right, front_eq, back_eq, depth_lt,
      nextDerived⟩ := derived.locateComparison
    obtain ⟨front, leftSlot, rfl, rfl, leftSymbol⟩ :=
      Row.form_eq_append_singleton front_eq
    obtain ⟨rightSlot, back, rfl, rightSymbol, rfl⟩ :=
      Row.form_eq_cons back_eq
    obtain ⟨leftDepth, rfl, leftLeaf⟩ :=
      (fits leftSlot (by simp)).eq_node leftSymbol
    obtain ⟨rightDepth, rfl, rightLeaf⟩ :=
      (fits rightSlot (by simp)).eq_node rightSymbol
    have leftTaken :
        Slot.operand (.binary (.comparison kind)) .left
          (.node ⟨left, leftDepth⟩) = .ok ⟨left, leftDepth⟩ :=
      Slot.operand_eq_ok_iff.mpr (Or.inl ⟨rfl, fun _ => leftLeaf⟩)
    have rightTaken :
        Slot.operand (.binary (.comparison kind)) .right
          (.node ⟨right, rightDepth⟩) = .ok ⟨right, rightDepth⟩ :=
      Slot.operand_eq_ok_iff.mpr (Or.inl ⟨rfl, fun _ => rightLeaf⟩)
    have leftSound := (fits (.node ⟨left, leftDepth⟩) (by simp)).1
    have rightSound := (fits (.node ⟨right, rightDepth⟩) (by simp)).1
    have depthWithin : max leftDepth rightDepth < limit :=
      leftSound.max_depth_lt rightSound (Nat.lt_of_lt_of_le depth_lt within)
    have leftmostFront :
        ∀ slot ∈ front,
          slot.binaryOp? (kinds.map BinaryOp.comparison) = none := by
      intro slot slotMember
      exact leftmost slot (List.mem_append_left _ slotMember)
    refine ⟨front ++ .node ⟨.binary (.comparison kind) left right,
      max leftDepth rightDepth + 1⟩ :: back, ?_, ?_⟩
    · rw [List.append_assoc]
      exact .binary member isOperator leftmostFront leftTaken rightTaken
        depthWithin
    · rw [Row.form_append, Row.form_cons, Slot.symbol_binary]
      exact nextDerived

/-- Comparisons are resolved in any order. -/
theorem faithful_comparisons
    (limit : Nat)
    (kinds : List Comparison) :
    (binary (kinds.map BinaryOp.comparison)).Faithful limit
      (fun row => ∀ slot ∈ row, slot.Fits limit 0 1) where
  preserved := by
    intro row next fits steps
    cases steps with
    | binary member isOperator leftmost leftTaken rightTaken within =>
        obtain ⟨kind, -, rfl⟩ := List.mem_map.mp member
        have leftSound := (fits _ (by simp)).sound_of_operand leftTaken
        have rightSound := (fits _ (by simp)).sound_of_operand rightTaken
        intro slot slotMember
        simp only [List.mem_append, List.mem_cons] at slotMember
        rcases slotMember with inFront | rfl | inBack
        · exact fits slot (by simp [inFront])
        · exact ⟨Subtree.sound_binary leftSound rightSound within,
            Nat.le_refl 1⟩
        · exact fits slot (by simp [inBack])
  sound := by
    intro row next tree nesting fits steps derived
    cases steps with
    | @binary _ op operator leftSlot rightSlot left right front back member
        isOperator leftmost leftTaken rightTaken within =>
        obtain ⟨kind, -, rfl⟩ := List.mem_map.mp member
        have noParen : Symbol.mark .openParen ∉ Row.form front := by
          apply Row.openParen_not_mem_form
          intro slot slotMember
          exact fits slot (by simp [slotMember])
        rw [Row.form_append, Row.form_cons, Slot.symbol_binary] at derived
        have unfolded := derived.replacePhrase noParen .comparison
        simpa [Slot.symbol_of_operand rfl leftTaken,
          Slot.symbol_of_operand rfl rightTaken,
          Slot.symbol_operator isOperator] using unfolded
  complete := fun fits derived within =>
    complete_comparisons fits derived within

/-! ## Negations -/

/-- Negations nest from the inside out: behind the rightmost one, its operand is
a single slot. -/
theorem faithful_negation (limit : Nat) :
    negation.Faithful limit (fun row => ∀ slot ∈ row, slot.Fits limit 1 2) where
  preserved := by
    intro row next fits steps
    cases steps with
    | negation isOperator rightmost taken within =>
        have sound := (fits _ (by simp)).sound_of_operand taken
        intro slot slotMember
        simp only [List.mem_append, List.mem_cons] at slotMember
        rcases slotMember with inFront | rfl | inBack
        · exact fits slot (by simp [inFront])
        · exact ⟨Subtree.sound_not sound within, Nat.le_refl 2⟩
        · exact fits slot (by simp [inBack])
  sound := by
    intro row next tree nesting fits steps derived
    cases steps with
    | @negation operator slot child front back isOperator rightmost taken
        within =>
        have noParen : Symbol.mark .openParen ∉ Row.form front := by
          apply Row.openParen_not_mem_form
          intro other otherMember
          exact fits other (by simp [otherMember])
        have operand : StandsFor .not [slot.symbol] child.tree nesting :=
          (fits slot (by simp)).standsFor taken (Nat.le_refl 2)
        rw [Row.form_append, Row.form_cons, Slot.symbol_not] at derived
        have unfolded := derived.replacePhrase noParen (.not operand)
        simpa [Slot.symbol_operator isOperator] using unfolded
  complete := by
    intro row tree nesting fits derived within
    rcases step?_negation_cases limit row with
      ended | ⟨operator, front, back, isOperator, rfl, rightmost⟩
    · exact Or.inl ended
    · right
      rw [Row.form_append, Row.form_cons,
        Slot.symbol_operator isOperator] at derived
      obtain ⟨operand, rest, child, inner, back_eq, depth_lt, operandDerived,
        nextDerived⟩ := derived.locateNot
      obtain ⟨operandRow, back, rfl, rfl, rfl⟩ :=
        List.map_eq_append_iff.mp back_eq
      have loose :
          ∀ found, Slot.token found ∈ operandRow →
            Level.not.rank < found.kind.rank := by
        intro found foundMember
        have used := fits (.token found) (by simp [foundMember])
        have noNegation := rightmost (.token found) (by simp [foundMember])
        exact TokenKind.not_rank_lt used (Slot.kind_ne_not noNegation)
      obtain ⟨slot, rfl, single⟩ := Row.eq_singleton operandDerived loose
      have slotFits := fits slot (by simp)
      obtain ⟨depth, taken⟩ := slotFits.operand .not single rfl .right
      have sound := slotFits.sound_of_operand taken
      have depthWithin : depth < limit := by
        have depth_eq : depth = child.depth := sound.1
        omega
      have rightmostBack : ∀ other ∈ back, other.negation? = none := by
        intro other otherMember
        exact rightmost other (by simp [otherMember])
      refine ⟨front ++ .node ⟨.not child, depth + 1⟩ :: back, ?_, ?_⟩
      · exact .negation isOperator rightmostBack taken depthWithin
      · rw [Row.form_append, Row.form_cons, Slot.symbol_not]
        exact nextDerived

/-! ## Connectives -/

/-- A row in which a connective is being joined from the left: phrases of the
connective stand in the front, where no connective is left, and only there. -/
def Joining
    (limit : Nat)
    (op : BinaryOp)
    (below level : Level)
    (row : Row) : Prop :=
  ∃ front back : Row,
    row = front ++ back ∧
    (∀ slot ∈ front, slot.binaryOp? [op] = none) ∧
    (∀ slot ∈ front, slot.Fits limit below.rank level.rank) ∧
    ∀ slot ∈ back, slot.Fits limit below.rank below.rank

/-- What fits on either side of a connective that has not been joined yet. -/
theorem Joining.fits
    {limit : Nat}
    {op : BinaryOp}
    {below level : Level}
    {operator : Token}
    {front back : Row}
    (joining : Joining limit op below level (front ++ .token operator :: back))
    (joins : op.Joins below level)
    (isOperator : operator.kind = .operator (.binary op)) :
    (∀ slot ∈ front, slot.Fits limit below.rank level.rank) ∧
      ∀ slot ∈ back, slot.Fits limit below.rank below.rank := by
  obtain ⟨joinedFront, rest, divided, joined, frontFits, restFits⟩ := joining
  have below_le : below.rank ≤ level.rank := by
    rw [joins.rank_eq]
    exact Nat.le_succ _
  rcases append_eq_append_cons divided.symm with
    ⟨middle, rfl, rfl⟩ | ⟨middle, rfl, rfl⟩
  · have unselected := joined (.token operator) (by simp)
    exact absurd isOperator (Slot.kind_ne_operator unselected (by simp))
  · constructor
    · intro slot member
      rcases List.mem_append.mp member with inFront | inMiddle
      · exact frontFits slot inFront
      · exact (restFits slot (by simp [inMiddle])).mono (Nat.le_refl _) below_le
    · intro slot member
      exact restFits slot (by simp [member])

theorem Joining.preserved
    {limit : Nat}
    {op : BinaryOp}
    {below level : Level}
    {row next : Row}
    (joining : Joining limit op below level row)
    (joins : op.Joins below level)
    (steps : (binary [op]).Steps limit row next) :
    Joining limit op below level next := by
  cases steps with
  | @binary _ _ operator leftSlot rightSlot left right front back member
      isOperator leftmost leftTaken rightTaken within =>
      obtain rfl := List.mem_singleton.mp member
      rw [List.append_cons] at joining
      obtain ⟨frontFits, backFits⟩ := joining.fits joins isOperator
      have leftSound :=
        (frontFits leftSlot (by simp)).sound_of_operand leftTaken
      have rightSound :=
        (backFits rightSlot (by simp)).sound_of_operand rightTaken
      refine ⟨front ++ [.node _], back, List.append_cons _ _ _, ?_, ?_, ?_⟩
      · intro slot slotMember
        rcases List.mem_append.mp slotMember with inFront | isNode
        · exact leftmost slot inFront
        · rw [List.mem_singleton.mp isNode]
          rfl
      · intro slot slotMember
        rcases List.mem_append.mp slotMember with inFront | isNode
        · exact frontFits slot (by simp [inFront])
        · rw [List.mem_singleton.mp isNode]
          refine ⟨Subtree.sound_binary leftSound rightSound within, ?_⟩
          exact Nat.le_of_eq (congrArg Level.rank joins.level_eq)
      · intro slot slotMember
        exact backFits slot (by simp [slotMember])

theorem Joining.sound
    {limit : Nat}
    {op : BinaryOp}
    {below level : Level}
    {row next : Row}
    {tree : Expr}
    {nesting : Nat}
    (joining : Joining limit op below level row)
    (joins : op.Joins below level)
    (steps : (binary [op]).Steps limit row next)
    (derived : StandsFor .or next.form tree nesting) :
    StandsFor .or row.form tree nesting := by
  cases steps with
  | @binary _ _ operator leftSlot rightSlot left right front back member
      isOperator leftmost leftTaken rightTaken within =>
      obtain rfl := List.mem_singleton.mp member
      rw [List.append_cons] at joining
      obtain ⟨frontFits, backFits⟩ := joining.fits joins isOperator
      have noParen : Symbol.mark .openParen ∉ Row.form front := by
        apply Row.openParen_not_mem_form
        intro slot slotMember
        exact frontFits slot (by simp [slotMember])
      have leftDerived :
          StandsFor level [leftSlot.symbol] left.tree nesting :=
        (frontFits leftSlot (by simp)).standsFor leftTaken (Nat.le_refl _)
      have rightDerived :
          StandsFor below [rightSlot.symbol] right.tree nesting :=
        (backFits rightSlot (by simp)).standsFor rightTaken (Nat.le_refl _)
      rw [Row.form_append, Row.form_cons, Slot.symbol_binary,
        joins.level_eq] at derived
      have unfolded := derived.replacePhrase noParen
        (.join joins leftDerived rightDerived)
      simpa [Slot.symbol_operator isOperator] using unfolded

/-- Before the leftmost connective all operands have come together in a single
slot. -/
theorem Joining.complete
    {limit : Nat}
    {op : BinaryOp}
    {below level : Level}
    {row : Row}
    {tree : Expr}
    {nesting : Nat}
    (joining : Joining limit op below level row)
    (joins : op.Joins below level)
    (derived : StandsFor .or row.form tree nesting)
    (within : tree.depth ≤ limit) :
    (binary [op]).step? limit row = none ∨
      ∃ next, (binary [op]).Steps limit row next ∧
        StandsFor .or next.form tree nesting := by
  rcases step?_binary_cases limit [op] row with
    ended | ⟨other, operator, front, back, member, isOperator, rfl, leftmost⟩
  · exact Or.inl ended
  · right
    obtain rfl := List.mem_singleton.mp member
    obtain ⟨frontFits, backFits⟩ := joining.fits joins isOperator
    rw [Row.form_append, Row.form_cons,
      Slot.symbol_operator isOperator] at derived
    obtain ⟨outer, leftForm, rightForm, rest, left, right, inner, front_eq,
      back_eq, depth_lt, leftDerived, rightDerived, nextDerived⟩ :=
      derived.locateJoin joins
    obtain ⟨front, leftRow, rfl, rfl, rfl⟩ :=
      List.map_eq_append_iff.mp front_eq
    obtain ⟨rightRow, back, rfl, rfl, rfl⟩ :=
      List.map_eq_append_iff.mp back_eq
    have leftLoose :
        ∀ found, Slot.token found ∈ leftRow →
          level.rank < found.kind.rank := by
      intro found foundMember
      have used := frontFits (.token found) (by simp [foundMember])
      have unselected := leftmost (.token found) (by simp [foundMember])
      exact TokenKind.joined_rank_lt joins used
        (Slot.kind_ne_operator unselected (by simp))
    have rightLoose :
        ∀ found, Slot.token found ∈ rightRow →
          below.rank < found.kind.rank := by
      intro found foundMember
      exact backFits (.token found) (by simp [foundMember])
    obtain ⟨leftSlot, rfl, leftSingle⟩ :=
      Row.eq_singleton leftDerived leftLoose
    obtain ⟨rightSlot, rfl, rightSingle⟩ :=
      Row.eq_singleton rightDerived rightLoose
    have leftFits := frontFits leftSlot (by simp)
    have rightFits := backFits rightSlot (by simp)
    obtain ⟨leftDepth, leftTaken⟩ := leftFits.operand (.binary other)
      leftSingle joins.isComparison_eq_false .left
    obtain ⟨rightDepth, rightTaken⟩ := rightFits.operand (.binary other)
      rightSingle joins.isComparison_eq_false .right
    have leftSound := leftFits.sound_of_operand leftTaken
    have rightSound := rightFits.sound_of_operand rightTaken
    have depthWithin : max leftDepth rightDepth < limit :=
      leftSound.max_depth_lt rightSound (Nat.lt_of_lt_of_le depth_lt within)
    have leftmostFront : ∀ slot ∈ front, slot.binaryOp? [other] = none := by
      intro slot slotMember
      exact leftmost slot (List.mem_append_left _ slotMember)
    refine ⟨front ++ .node ⟨.binary other left right,
      max leftDepth rightDepth + 1⟩ :: back, ?_, ?_⟩
    · rw [List.append_assoc]
      exact .binary member isOperator leftmostFront leftTaken rightTaken
        depthWithin
    · rw [Row.form_append, Row.form_cons, Slot.symbol_binary, joins.level_eq]
      exact nextDerived

/-- Connectives are joined from the left. -/
theorem faithful_connective
    (limit : Nat)
    {op : BinaryOp}
    {below level : Level}
    (joins : op.Joins below level) :
    (binary [op]).Faithful limit (Joining limit op below level) where
  preserved := fun joining steps => joining.preserved joins steps
  sound := fun joining steps derived => joining.sound joins steps derived
  complete := fun joining derived within =>
    joining.complete joins derived within

end Phase

end FilterLang
