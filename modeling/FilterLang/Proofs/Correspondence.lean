import FilterLang.Compile
import FilterLang.Proofs.ParseGrammar
import Mathlib.Data.List.Forall2

/-!
# The parser decides on the kinds of tokens

Two lists of tokens correspond when they have the same kinds in the same order;
corresponding tokens may be related further in any way. Every step of the parser
takes corresponding rows to corresponding rows, or fails on both with errors that
differ only in what they tell of corresponding tokens. The main statements,
`parse_corresponds` and `compile_corresponds`, say so of the whole parser and of
source texts with corresponding tokens.
-/

namespace FilterLang

variable {α β : Type}

/-! ## What corresponds -/

/-- Two tokens of one kind that are related. -/
structure Token.Corresponds
    (related : Token → Token → Prop)
    (token other : Token) : Prop where
  kind_eq : token.kind = other.kind
  related : related token other

/-- Two expressions with the same operators and the same forms of leaves in the
same places. -/
inductive Expr.SameShape : Expr → Expr → Prop
  | identifier
      (name other : String) :
      SameShape (identifier name) (identifier other)
  | literal
      (value other : String) :
      SameShape (literal value) (literal other)
  | not
      {child other : Expr}
      (children : SameShape child other) :
      SameShape (not child) (not other)
  | binary
      {op : BinaryOp}
      {left right otherLeft otherRight : Expr}
      (lefts : SameShape left otherLeft)
      (rights : SameShape right otherRight) :
      SameShape (binary op left right) (binary op otherLeft otherRight)

/-- Two errors of one kind, in as many groups and about the same operator, side
and limit. Tokens and positions are those of corresponding tokens. -/
inductive ParseError.Corresponds (related : Token → Token → Prop) :
    ParseError → ParseError → Prop
  | danglingOpen
      {opening other : Token}
      (openings : opening.Corresponds related other) :
      Corresponds related (danglingOpen opening.position)
        (danglingOpen other.position)
  | unmatchedOpen
      {opening other : Token}
      (openings : opening.Corresponds related other) :
      Corresponds related (unmatchedOpen opening.position)
        (unmatchedOpen other.position)
  | emptyGroup
      {opening other : Token}
      (openings : opening.Corresponds related other) :
      Corresponds related (emptyGroup opening.position)
        (emptyGroup other.position)
  | missingOperand
      (operator : Operator)
      (side : Side) :
      Corresponds related (missingOperand operator side)
        (missingOperand operator side)
  | unreducedOperand
      {found other : Token}
      (operator : Operator)
      (side : Side)
      (tokens : found.Corresponds related other) :
      Corresponds related (unreducedOperand operator side found)
        (unreducedOperand operator side other)
  | invalidOperand
      (operator : Operator)
      (side : Side) :
      Corresponds related (invalidOperand operator side)
        (invalidOperand operator side)
  | tooDeep
      (limit : Nat) :
      Corresponds related (tooDeep limit) (tooDeep limit)
  | inGroup
      {inner other : ParseError}
      (inners : inner.Corresponds related other) :
      Corresponds related (inGroup inner) (inGroup other)
  | notSingle : Corresponds related notSingle notSingle

/-- Two subexpressions of one shape and one depth. -/
structure Subtree.Corresponds (subtree other : Subtree) : Prop where
  sameShape : subtree.tree.SameShape other.tree
  depth_eq : subtree.depth = other.depth

/-- Two slots that hold tokens or subexpressions that correspond. -/
inductive Slot.Corresponds (related : Token → Token → Prop) :
    Slot → Slot → Prop
  | token
      {found other : Token}
      (tokens : found.Corresponds related other) :
      Corresponds related (token found) (token other)
  | node
      {subtree other : Subtree}
      (subtrees : subtree.Corresponds other) :
      Corresponds related (node subtree) (node other)
  | group
      {subtree other : Subtree}
      (subtrees : subtree.Corresponds other) :
      Corresponds related (group subtree) (group other)

/-- Two rows with corresponding slots in the same order. -/
abbrev Row.Corresponds
    (related : Token → Token → Prop)
    (row other : Row) : Prop :=
  List.Forall₂ (Slot.Corresponds related) row other

/-- Two outcomes of parsing steps that correspond. -/
abbrev StepsCorrespond
    (related : Token → Token → Prop)
    (values : α → α → Prop) : Except ParseError α → Except ParseError α → Prop :=
  OutcomesCorrespond (ParseError.Corresponds related) values

variable {related : Token → Token → Prop}

namespace Expr.SameShape

variable {tree other : Expr}

theorem isLeaf_eq (sameShape : tree.SameShape other) :
    tree.isLeaf = other.isLeaf := by
  cases sameShape <;> rfl

theorem length_leaves_eq (sameShape : tree.SameShape other) :
    tree.leaves.length = other.leaves.length := by
  induction sameShape with
  | identifier name other => rfl
  | literal value other => rfl
  | not children hypothesis => exact hypothesis
  | binary lefts rights leftHypothesis rightHypothesis =>
      rw [leaves, leaves, List.length_append, List.length_append,
        leftHypothesis, rightHypothesis]

/-- An expression is determined by its shape and its leaves. -/
theorem eq_of_leaves_eq
    (sameShape : tree.SameShape other)
    (leaves_eq : tree.leaves = other.leaves) :
    tree = other := by
  induction sameShape with
  | identifier name other => exact List.singleton_inj.mp leaves_eq
  | literal value other => exact List.singleton_inj.mp leaves_eq
  | not children hypothesis => exact congrArg Expr.not (hypothesis leaves_eq)
  | binary lefts rights leftHypothesis rightHypothesis =>
      obtain ⟨left_eq, right_eq⟩ :=
        List.append_inj leaves_eq lefts.length_leaves_eq
      rw [leftHypothesis left_eq, rightHypothesis right_eq]

end Expr.SameShape

/-! ## Slots -/

namespace Slot.Corresponds

variable {slot other : Slot}

theorem openParen?
    (slots : slot.Corresponds related other) :
    Option.Rel (Token.Corresponds related) slot.openParen?
      other.openParen? := by
  cases slots with
  | token tokens =>
      simp only [Slot.openParen?, Slot.token?, Option.filter, tokens.kind_eq]
      split
      · exact .some tokens
      · exact .none
  | node => exact .none
  | group => exact .none

theorem negation?
    (slots : slot.Corresponds related other) :
    Option.Rel (Token.Corresponds related) slot.negation? other.negation? := by
  cases slots with
  | token tokens =>
      simp only [Slot.negation?, Slot.token?, Option.filter, tokens.kind_eq]
      split
      · exact .some tokens
      · exact .none
  | node => exact .none
  | group => exact .none

theorem isCloseParen_eq
    (slots : slot.Corresponds related other) :
    slot.isCloseParen = other.isCloseParen := by
  cases slots with
  | token tokens =>
      simp only [Slot.isCloseParen, Slot.token?, Option.any_some,
        tokens.kind_eq]
  | node => rfl
  | group => rfl

theorem binaryOp?
    (slots : slot.Corresponds related other)
    (ops : List BinaryOp) :
    Option.Rel Eq (slot.binaryOp? ops) (other.binaryOp? ops) := by
  cases slots with
  | @token found other tokens =>
      obtain ⟨kind, text, span⟩ := found
      obtain ⟨otherKind, otherText, otherSpan⟩ := other
      obtain rfl : kind = otherKind := tokens.kind_eq
      cases kind with
      | operator operator =>
          cases operator with
          | not => exact .none
          | binary op =>
              simp only [Slot.binaryOp?]
              split
              · exact .some rfl
              · exact .none
      | identifier => exact .none
      | literal => exact .none
      | openParen => exact .none
      | closeParen => exact .none
  | node => exact .none
  | group => exact .none

theorem toLeaf
    (slots : slot.Corresponds related other) :
    slot.toLeaf.Corresponds related other.toLeaf := by
  cases slots with
  | @token found other tokens =>
      obtain ⟨kind, text, span⟩ := found
      obtain ⟨otherKind, otherText, otherSpan⟩ := other
      obtain rfl : kind = otherKind := tokens.kind_eq
      cases kind with
      | identifier => exact .node ⟨.identifier text otherText, rfl⟩
      | literal => exact .node ⟨.literal text otherText, rfl⟩
      | operator operator => exact .token tokens
      | openParen => exact .token tokens
      | closeParen => exact .token tokens
  | node subtrees => exact .node subtrees
  | group subtrees => exact .group subtrees

theorem operand
    (slots : slot.Corresponds related other)
    (operator : Operator)
    (side : Side) :
    StepsCorrespond related Subtree.Corresponds (slot.operand operator side)
      (other.operand operator side) := by
  cases slots with
  | token tokens => exact .error (.unreducedOperand operator side tokens)
  | node subtrees =>
      simp only [Slot.operand, subtrees.sameShape.isLeaf_eq]
      split
      · exact .error (.invalidOperand operator side)
      · exact .ok subtrees
  | group subtrees =>
      simp only [Slot.operand]
      split
      · exact .error (.invalidOperand operator side)
      · exact .ok subtrees

end Slot.Corresponds

/-! ## Places in a row -/

/-- Two places with corresponding finds and corresponding neighbours. -/
structure Focus.Corresponds
    (elements : α → α → Prop)
    (finds : β → β → Prop)
    (focus other : Focus α β) : Prop where
  before : List.Forall₂ elements focus.before other.before
  found : finds focus.found other.found
  after : List.Forall₂ elements focus.after other.after

namespace Focus

variable {elements : α → α → Prop} {finds : β → β → Prop} {select : α → Option β}

theorem firstBehind?_corresponds
    {row other before otherBefore : List α}
    (selects : ∀ element other, elements element other →
      Option.Rel finds (select element) (select other))
    (befores : List.Forall₂ elements before otherBefore)
    (rows : List.Forall₂ elements row other) :
    Option.Rel (Corresponds elements finds) (firstBehind? select before row)
      (firstBehind? select otherBefore other) := by
  induction rows generalizing before otherBefore with
  | nil => exact .none
  | @cons element otherElement row other head tail hypothesis =>
      have selected := selects element otherElement head
      simp only [firstBehind?]
      generalize select element = chosen at selected ⊢
      generalize select otherElement = otherChosen at selected ⊢
      cases selected with
      | none => exact hypothesis (.cons head befores)
      | some found => exact .some ⟨befores, found, tail⟩

theorem first?_corresponds
    {row other : List α}
    (selects : ∀ element other, elements element other →
      Option.Rel finds (select element) (select other))
    (rows : List.Forall₂ elements row other) :
    Option.Rel (Corresponds elements finds) (first? select row)
      (first? select other) :=
  firstBehind?_corresponds selects .nil rows

theorem last?_corresponds
    {row other : List α}
    (selects : ∀ element other, elements element other →
      Option.Rel finds (select element) (select other))
    (rows : List.Forall₂ elements row other) :
    Option.Rel (Corresponds elements finds) (last? select row)
      (last? select other) := by
  have selected := first?_corresponds selects (List.rel_reverse rows)
  simp only [last?]
  generalize first? select row.reverse = mirrored at selected ⊢
  generalize first? select other.reverse = otherMirrored at selected ⊢
  cases selected with
  | none => exact .none
  | some focuses => exact .some ⟨focuses.after, focuses.found, focuses.before⟩

theorem fill_corresponds
    {before otherBefore after otherAfter : List α}
    {element otherElement : α}
    (befores : List.Forall₂ elements before otherBefore)
    (corresponds : elements element otherElement)
    (afters : List.Forall₂ elements after otherAfter) :
    List.Forall₂ elements (fill before element after)
      (fill otherBefore otherElement otherAfter) := by
  rw [fill_eq, fill_eq]
  exact List.rel_append (List.rel_reverse befores) (.cons corresponds afters)

end Focus

/-! ## Phases -/

namespace Row.Corresponds

variable {row other : Row} {limit level : Nat}

theorem takeOperand
    (rows : row.Corresponds related other)
    (operator : Operator)
    (side : Side) :
    StepsCorrespond related
      (fun taken otherTaken => taken.1.Corresponds otherTaken.1 ∧
        Corresponds related taken.2 otherTaken.2)
      (Row.takeOperand operator side row)
      (Row.takeOperand operator side other) := by
  cases rows with
  | nil => exact .error (.missingOperand operator side)
  | cons head tail =>
      refine (head.operand operator side).bind ?_
      intro subtree otherSubtree subtrees
      exact .ok ⟨subtrees, tail⟩

theorem depthAbove
    {depth otherDepth : Nat}
    (limit : Nat)
    (depths : depth = otherDepth) :
    StepsCorrespond related Eq (Row.depthAbove limit depth)
      (Row.depthAbove limit otherDepth) := by
  subst depths
  unfold Row.depthAbove
  split
  · exact .ok rfl
  · exact .error (.tooDeep limit)

theorem reduceBinary
    {focus otherFocus : Focus Slot BinaryOp}
    (limit : Nat)
    (focuses : focus.Corresponds (Slot.Corresponds related) Eq otherFocus) :
    StepsCorrespond related (Corresponds related)
      (Row.reduceBinary limit focus) (Row.reduceBinary limit otherFocus) := by
  obtain ⟨before, op, after⟩ := focus
  obtain ⟨otherBefore, otherOp, otherAfter⟩ := otherFocus
  obtain ⟨befores, rfl, afters⟩ := focuses
  refine (takeOperand afters (.binary op) .right).bind ?_
  rintro ⟨right, after⟩ ⟨otherRight, otherAfter⟩ ⟨rights, afters⟩
  refine (takeOperand befores (.binary op) .left).bind ?_
  rintro ⟨left, before⟩ ⟨otherLeft, otherBefore⟩ ⟨lefts, befores⟩
  have depths :
      max left.depth right.depth = max otherLeft.depth otherRight.depth := by
    rw [lefts.depth_eq, rights.depth_eq]
  refine (depthAbove limit depths).bind ?_
  rintro depth _ rfl
  exact .ok (Focus.fill_corresponds befores
    (.node ⟨.binary lefts.sameShape rights.sameShape, rfl⟩) afters)

theorem reduceNegation
    {focus otherFocus : Focus Slot Token}
    (limit : Nat)
    (focuses : focus.Corresponds (Slot.Corresponds related)
      (Token.Corresponds related) otherFocus) :
    StepsCorrespond related (Corresponds related)
      (Row.reduceNegation limit focus)
      (Row.reduceNegation limit otherFocus) := by
  refine (takeOperand focuses.after .not .right).bind ?_
  rintro ⟨child, after⟩ ⟨otherChild, otherAfter⟩ ⟨children, afters⟩
  refine (depthAbove limit children.depth_eq).bind ?_
  rintro depth _ rfl
  exact .ok (Focus.fill_corresponds focuses.before
    (.node ⟨.not children.sameShape, rfl⟩) afters)

theorem step?
    (rows : row.Corresponds related other)
    (limit : Nat)
    (phase : Phase) :
    Option.Rel (StepsCorrespond related (Corresponds related))
      (phase.step? limit row) (phase.step? limit other) := by
  cases phase with
  | binary ops =>
      have selected := Focus.first?_corresponds
        (fun _ _ slots => slots.binaryOp? ops) rows
      simp only [Phase.step?]
      generalize Focus.first? (Slot.binaryOp? ops) row = found at selected ⊢
      generalize Focus.first? (Slot.binaryOp? ops) other = otherFound
        at selected ⊢
      cases selected with
      | none => exact .none
      | some focuses => exact .some (reduceBinary limit focuses)
  | negation =>
      have selected := Focus.last?_corresponds
        (fun _ _ slots => slots.negation?) rows
      simp only [Phase.step?]
      generalize Focus.last? Slot.negation? row = found at selected ⊢
      generalize Focus.last? Slot.negation? other = otherFound at selected ⊢
      cases selected with
      | none => exact .none
      | some focuses => exact .some (reduceNegation limit focuses)

/-- By induction on the tokens that are left in the first row. -/
theorem exhaust
    (rows : row.Corresponds related other)
    (limit : Nat)
    (phase : Phase) :
    StepsCorrespond related (Corresponds related) (phase.exhaust limit row)
      (phase.exhaust limit other) := by
  induction count : row.tokenCount using Nat.strongRecOn
    generalizing row other with
  | ind count hypothesis =>
      subst count
      have stepped := rows.step? limit phase
      generalize outcome_eq : phase.step? limit row = outcome at stepped
      generalize otherOutcome_eq : phase.step? limit other = otherOutcome
        at stepped
      cases stepped with
      | none =>
          rw [Phase.exhaust_of_step?_eq_none outcome_eq,
            Phase.exhaust_of_step?_eq_none otherOutcome_eq]
          exact .ok rows
      | some outcomes =>
          rw [Phase.exhaust_of_step?_eq_some outcome_eq,
            Phase.exhaust_of_step?_eq_some otherOutcome_eq]
          cases outcomes with
          | error faults => exact .error faults
          | ok nexts =>
              exact hypothesis _ (Phase.tokenCount_of_step? outcome_eq) nexts
                rfl

theorem single
    (rows : row.Corresponds related other) :
    StepsCorrespond related Subtree.Corresponds row.single other.single := by
  cases rows with
  | nil => exact .error .notSingle
  | cons head tail =>
      cases tail with
      | nil =>
          cases head with
          | token => exact .error .notSingle
          | node subtrees => exact .ok subtrees
          | group subtrees => exact .ok subtrees
      | cons second rest =>
          cases head <;> exact .error .notSingle

theorem foldlM_exhaust
    (rows : row.Corresponds related other)
    (limit : Nat)
    (schedule : List Phase) :
    StepsCorrespond related (Corresponds related)
      (schedule.foldlM (fun row phase => phase.exhaust limit row) row)
      (schedule.foldlM (fun row phase => phase.exhaust limit row) other) := by
  induction schedule generalizing row other with
  | nil => exact .ok rows
  | cons phase schedule hypothesis =>
      rw [List.foldlM_cons, List.foldlM_cons]
      exact (rows.exhaust limit phase).bind fun _ _ nexts => hypothesis nexts

theorem assemble
    (rows : row.Corresponds related other)
    (limit : Nat)
    (schedule : List Phase) :
    StepsCorrespond related Subtree.Corresponds
      (row.assemble schedule limit) (other.assemble schedule limit) := by
  have leaves : Corresponds related (row.map Slot.toLeaf)
      (other.map Slot.toLeaf) :=
    List.rel_map (fun _ _ slots => slots.toLeaf) rows
  exact (leaves.foldlM_exhaust limit schedule).bind
    fun _ _ reduced => reduced.single

/-! ## Groups -/

theorem divideAtClose?
    (rows : row.Corresponds related other)
    (inner : Nat) :
    Option.Rel
      (fun parts otherParts => Corresponds related parts.1 otherParts.1 ∧
        Corresponds related parts.2 otherParts.2)
      (Row.divideAtClose? inner row) (Row.divideAtClose? inner other) := by
  induction rows generalizing inner with
  | nil => exact .none
  | @cons slot otherSlot row other head tail hypothesis =>
      have grown (rest : Nat) :
          Option.Rel
            (fun parts otherParts => Corresponds related parts.1 otherParts.1 ∧
              Corresponds related parts.2 otherParts.2)
            ((Row.divideAtClose? rest row).map
              fun parts => (slot :: parts.1, parts.2))
            ((Row.divideAtClose? rest other).map
              fun parts => (otherSlot :: parts.1, parts.2)) := by
        have divided := hypothesis rest
        generalize Row.divideAtClose? rest row = parts at divided ⊢
        generalize Row.divideAtClose? rest other = otherParts at divided ⊢
        cases divided with
        | none => exact .none
        | some parts => exact .some ⟨.cons head parts.1, parts.2⟩
      have isOpen_eq : slot.openParen?.isSome = otherSlot.openParen?.isSome := by
        have openings := head.openParen?
        generalize slot.openParen? = opening at openings ⊢
        generalize otherSlot.openParen? = otherOpening at openings ⊢
        cases openings <;> rfl
      rw [Row.divideAtClose?_cons, Row.divideAtClose?_cons, isOpen_eq,
        head.isCloseParen_eq]
      split
      · exact grown (inner + 1)
      · split
        · cases inner with
          | zero => exact .some ⟨.nil, tail⟩
          | succ outer => exact grown outer
        · exact grown inner

end Row.Corresponds

/-- Two groups with corresponding contents and surroundings. -/
structure Group.Corresponds
    (related : Token → Token → Prop)
    (group other : Group) : Prop where
  before : group.before.Corresponds related other.before
  contents : group.contents.Corresponds related other.contents
  after : group.after.Corresponds related other.after

namespace Row.Corresponds

variable {row other : Row}

theorem isEmpty_eq (rows : row.Corresponds related other) :
    row.isEmpty = other.isEmpty := by
  cases rows <;> rfl

theorem firstGroup? (rows : row.Corresponds related other) :
    StepsCorrespond related (Option.Rel (Group.Corresponds related))
      row.firstGroup? other.firstGroup? := by
  have selected := Focus.first?_corresponds
    (fun _ _ slots => slots.openParen?) rows
  simp only [Row.firstGroup?]
  generalize Focus.first? Slot.openParen? row = found at selected ⊢
  generalize Focus.first? Slot.openParen? other = otherFound at selected ⊢
  cases selected with
  | none => exact .ok .none
  | @some focus otherFocus focuses =>
      obtain ⟨before, opening, after⟩ := focus
      obtain ⟨otherBefore, otherOpening, otherAfter⟩ := otherFocus
      obtain ⟨befores, openings, afters⟩ := focuses
      dsimp only at befores openings afters ⊢
      rw [isEmpty_eq afters]
      split
      · exact .error (.danglingOpen openings)
      · have divided := divideAtClose? afters 0
        generalize Row.divideAtClose? 0 after = parts at divided ⊢
        generalize Row.divideAtClose? 0 otherAfter = otherParts at divided ⊢
        cases divided with
        | none => exact .error (.unmatchedOpen openings)
        | @some parts otherParts correspond =>
            obtain ⟨contents, behind⟩ := parts
            obtain ⟨otherContents, otherBehind⟩ := otherParts
            obtain ⟨contentsCorrespond, behinds⟩ := correspond
            dsimp only at contentsCorrespond behinds ⊢
            rw [isEmpty_eq contentsCorrespond]
            split
            · exact .error (.emptyGroup openings)
            · exact .ok (.some ⟨befores, contentsCorrespond, behinds⟩)

end Row.Corresponds

theorem ParseError.Corresponds.outsideGroup
    {error other : ParseError}
    (errors : error.Corresponds related other) :
    error.outsideGroup.Corresponds related other.outsideGroup := by
  cases errors with
  | tooDeep limit => exact .tooDeep limit
  | danglingOpen openings => exact .inGroup (.danglingOpen openings)
  | unmatchedOpen openings => exact .inGroup (.unmatchedOpen openings)
  | emptyGroup openings => exact .inGroup (.emptyGroup openings)
  | missingOperand operator side =>
      exact .inGroup (.missingOperand operator side)
  | unreducedOperand operator side tokens =>
      exact .inGroup (.unreducedOperand operator side tokens)
  | invalidOperand operator side =>
      exact .inGroup (.invalidOperand operator side)
  | inGroup inners => exact .inGroup (.inGroup inners)
  | notSingle => exact .inGroup .notSingle

/-! ## The whole parser -/

/-- By induction on the tokens that are left in the first row. -/
theorem Row.Corresponds.reduce
    {row other : Row}
    (rows : row.Corresponds related other)
    (schedule : List Phase)
    (limit level : Nat) :
    StepsCorrespond related Subtree.Corresponds
      (row.reduce schedule limit level) (other.reduce schedule limit level) := by
  induction count : row.tokenCount using Nat.strongRecOn
    generalizing row other level with
  | ind count hypothesis =>
      subst count
      have groups := rows.firstGroup?
      generalize group_eq : row.firstGroup? = outcome at groups
      generalize otherGroup_eq : other.firstGroup? = otherOutcome at groups
      cases groups with
      | error faults =>
          rw [reduce_of_firstGroup?_error group_eq,
            reduce_of_firstGroup?_error otherGroup_eq]
          split
          · exact .error (.tooDeep limit)
          · exact .error faults
      | ok groups =>
          cases groups with
          | none =>
              rw [reduce_of_firstGroup?_none group_eq,
                reduce_of_firstGroup?_none otherGroup_eq]
              split
              · exact .error (.tooDeep limit)
              · exact rows.assemble limit schedule
          | some groups =>
              rw [reduce_of_firstGroup?_some group_eq,
                reduce_of_firstGroup?_some otherGroup_eq]
              split
              · exact .error (.tooDeep limit)
              · have inner := hypothesis _ (tokenCount_contents group_eq)
                  groups.contents (level + 1) rfl
                have outer := inner.mapError fun _ _ errors =>
                  errors.outsideGroup
                refine outer.bind ?_
                intro subtree otherSubtree subtrees
                have filled := Focus.fill_corresponds groups.before
                  (Slot.Corresponds.group subtrees) groups.after
                exact hypothesis _ (tokenCount_fill_group group_eq subtree)
                  filled level rfl

/-- Corresponding lists of tokens give expressions of one shape or
corresponding errors. -/
theorem parse_corresponds
    {tokens others : List Token}
    (correspond : List.Forall₂ (Token.Corresponds related) tokens others)
    (maxDepth : Nat) :
    StepsCorrespond related Expr.SameShape (parse maxDepth tokens)
      (parse maxDepth others) := by
  have rows : (Row.ofTokens tokens).Corresponds related (Row.ofTokens others) :=
    List.rel_map (fun _ _ tokens => .token tokens) correspond
  refine (rows.reduce Phase.standard maxDepth 0).bind ?_
  intro subtree otherSubtree subtrees
  exact .ok subtrees.sameShape

/-! ## From source texts -/

/-- Two compile errors of one stage that correspond. -/
inductive CompileError.Corresponds
    (lexErrors : LexError → LexError → Prop)
    (related : Token → Token → Prop) : CompileError → CompileError → Prop
  | lex
      {error other : LexError}
      (errors : lexErrors error other) :
      Corresponds lexErrors related (lex error) (lex other)
  | parse
      {error other : ParseError}
      (errors : error.Corresponds related other) :
      Corresponds lexErrors related (parse error) (parse other)

/-- Two source texts with corresponding tokens compile to expressions of one
shape, with the names and values of their own tokens as leaves, or to errors that
correspond. -/
theorem compile_corresponds
    {lexErrors : LexError → LexError → Prop}
    {source other : String}
    (tokenized : OutcomesCorrespond lexErrors
      (List.Forall₂ (Token.Corresponds related)) (tokenize source)
      (tokenize other))
    (maxDepth : Nat) :
    OutcomesCorrespond (CompileError.Corresponds lexErrors related)
      (fun tree otherTree => tree.SameShape otherTree ∧
        ∃ tokens others, tokenize source = .ok tokens ∧
          tokenize other = .ok others ∧
          tree.leaves = tokens.filterMap Token.leaf? ∧
          otherTree.leaves = others.filterMap Token.leaf?)
      (compile maxDepth source) (compile maxDepth other) := by
  have parsed :
      OutcomesCorrespond (CompileError.Corresponds lexErrors related)
        Expr.SameShape (compile maxDepth source) (compile maxDepth other) := by
    refine (tokenized.mapError fun _ _ errors => .lex errors).bind ?_
    intro tokens others correspond
    exact (parse_corresponds correspond maxDepth).mapError
      fun _ _ errors => .parse errors
  refine parsed.imp_of_ok ?_
  intro tree otherTree compiled otherCompiled sameShape
  obtain ⟨tokens, tokens_eq, tree_eq⟩ := compile_eq_ok_iff.mp compiled
  obtain ⟨others, others_eq, otherTree_eq⟩ :=
    compile_eq_ok_iff.mp otherCompiled
  exact ⟨sameShape, tokens, others, tokens_eq, others_eq,
    leaves_of_parse tree_eq, leaves_of_parse otherTree_eq⟩

end FilterLang
