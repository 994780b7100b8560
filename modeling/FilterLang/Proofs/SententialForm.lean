import FilterLang.Grammar
import FilterLang.Parse

/-!
# Sentential forms

The grammar sees a row of slots as a sentential form: operators, parentheses,
bare leaves, and phrases that have been reduced already and keep the level at
which they were made. The relation `StandsFor` extends the grammar of token
lists to these forms. Its main statement, `StandsFor.locate`, finds the phrase
that a given symbol takes part in; any other form of that phrase may be put in
its place. Reduction steps are read off it: a step puts the phrase of an
operator in the place of the operator and its operands.
-/

namespace FilterLang

/-- The place of a level in the order of precedence, the tightest first. -/
def Level.rank : Level → Nat
  | comparison => 1
  | not => 2
  | and => 3
  | or => 4

/-- The level at which a binary operator makes a phrase. -/
def BinaryOp.level : BinaryOp → Level
  | comparison _ => .comparison
  | and => .and
  | or => .or

/-- The place of a token in the order of reduction. Opening parentheses and
operands are used up first; closing parentheses that match nothing are left
over. -/
def TokenKind.rank : TokenKind → Nat
  | identifier => 0
  | literal => 0
  | openParen => 0
  | operator .not => Level.not.rank
  | operator (.binary op) => op.level.rank
  | closeParen => 5

/-- The level at which the root of an expression makes a phrase. -/
def Expr.level : Expr → Level
  | identifier _ => .comparison
  | literal _ => .comparison
  | not _ => .not
  | binary op _ _ => op.level

/-- A connective joins a phrase of one level to phrases of a looser level, on
their right. -/
inductive BinaryOp.Joins : BinaryOp → Level → Level → Prop
  | and : Joins .and .not .and
  | or : Joins .or .and .or

theorem BinaryOp.Joins.level_eq
    {op : BinaryOp}
    {below level : Level}
    (joins : op.Joins below level) :
    op.level = level := by
  cases joins <;> rfl

theorem BinaryOp.Joins.rank_eq
    {op : BinaryOp}
    {below level : Level}
    (joins : op.Joins below level) :
    level.rank = below.rank + 1 := by
  cases joins <;> rfl

theorem BinaryOp.Joins.unique
    {op : BinaryOp}
    {below level otherBelow otherLevel : Level}
    (joins : op.Joins below level)
    (others : op.Joins otherBelow otherLevel) :
    below = otherBelow ∧ level = otherLevel := by
  cases joins <;> cases others <;> exact ⟨rfl, rfl⟩

theorem BinaryOp.Joins.isComparison_eq_false
    {op : BinaryOp}
    {below level : Level}
    (joins : op.Joins below level) :
    op.isComparison = false := by
  cases joins <;> rfl

/-- What the grammar sees of a slot. -/
inductive Symbol
  /-- A bare name or value. -/
  | leaf (tree : Expr)
  /-- A subexpression that counts as a phrase of a level. -/
  | phrase (level : Level) (tree : Expr)
  /-- An operator or a parenthesis. -/
  | mark (kind : TokenKind)

/-- The symbol of a token. -/
def Token.symbol (token : Token) : Symbol :=
  match token.leaf? with
  | some leaf => .leaf leaf
  | none => .mark token.kind

/-- The symbol of a slot. A group counts as a phrase of the tightest level, but
not as a bare leaf. -/
def Slot.symbol : Slot → Symbol
  | token found => found.symbol
  | node subtree =>
      if subtree.tree.isLeaf then
        .leaf subtree.tree
      else
        .phrase subtree.tree.level subtree.tree
  | group subtree => .phrase .comparison subtree.tree

/-- The sentential form of a row. -/
def Row.form (row : Row) : List Symbol :=
  row.map Slot.symbol

/-- A sentential form stands for an expression at a level of the grammar, with
at most so many parentheses open at once. -/
inductive StandsFor : Level → List Symbol → Expr → Nat → Prop
  | leaf
      {tree : Expr}
      {nesting : Nat} :
      StandsFor .comparison [.leaf tree] tree nesting
  | phrase
      {level : Level}
      {tree : Expr}
      {nesting : Nat} :
      StandsFor level [.phrase level tree] tree nesting
  | comparison
      {kind : Comparison}
      {left right : Expr}
      {nesting : Nat} :
      StandsFor .comparison
        [.leaf left, .mark (.comparison kind), .leaf right]
        (.binary (.comparison kind) left right) nesting
  | group
      {contents : List Symbol}
      {tree : Expr}
      {nesting : Nat}
      (derived : StandsFor .or contents tree nesting) :
      StandsFor .comparison
        (.mark .openParen :: contents ++ [.mark .closeParen]) tree (nesting + 1)
  | not
      {form : List Symbol}
      {child : Expr}
      {nesting : Nat}
      (derived : StandsFor .not form child nesting) :
      StandsFor .not (.mark .not :: form) (.not child) nesting
  | join
      {op : BinaryOp}
      {below level : Level}
      {front back : List Symbol}
      {left right : Expr}
      {nesting : Nat}
      (joins : op.Joins below level)
      (leftDerived : StandsFor level front left nesting)
      (rightDerived : StandsFor below back right nesting) :
      StandsFor level (front ++ .mark (.operator (.binary op)) :: back)
        (.binary op left right) nesting
  | raise
      {level raised : Level}
      {form : List Symbol}
      {tree : Expr}
      {nesting : Nat}
      (higher : level.rank ≤ raised.rank)
      (derived : StandsFor level form tree nesting) :
      StandsFor raised form tree nesting

namespace StandsFor

/-- A larger allowance of open parentheses does no harm. -/
theorem mono
    {level : Level}
    {form : List Symbol}
    {tree : Expr}
    {nesting allowance : Nat}
    (derived : StandsFor level form tree nesting)
    (le : nesting ≤ allowance) :
    StandsFor level form tree allowance := by
  induction derived generalizing allowance with
  | leaf => exact .leaf
  | phrase => exact .phrase
  | comparison => exact .comparison
  | @group contents tree nesting derived hypothesis =>
      obtain ⟨inner, rfl⟩ : ∃ inner, allowance = inner + 1 :=
        ⟨allowance - 1, by omega⟩
      exact .group (hypothesis (by omega))
  | not derived hypothesis => exact .not (hypothesis le)
  | join joins leftDerived rightDerived leftHypothesis rightHypothesis =>
      exact .join joins (leftHypothesis le) (rightHypothesis le)
  | raise higher derived hypothesis => exact .raise higher (hypothesis le)

end StandsFor

/-- A symbol takes part in a phrase when the phrase is made by a rule that names
the symbol. The lists hold the symbols before it and after it. -/
inductive TakesPart : List Symbol → Symbol → List Symbol →
    Level → Expr → Nat → Prop
  | leaf
      {tree : Expr}
      {nesting : Nat} :
      TakesPart [] (.leaf tree) [] .comparison tree nesting
  | phrase
      {level : Level}
      {tree : Expr}
      {nesting : Nat} :
      TakesPart [] (.phrase level tree) [] level tree nesting
  | leftLeaf
      {kind : Comparison}
      {left right : Expr}
      {nesting : Nat} :
      TakesPart [] (.leaf left) [.mark (.comparison kind), .leaf right]
        .comparison (.binary (.comparison kind) left right) nesting
  | comparison
      {kind : Comparison}
      {left right : Expr}
      {nesting : Nat} :
      TakesPart [.leaf left] (.mark (.comparison kind)) [.leaf right]
        .comparison (.binary (.comparison kind) left right) nesting
  | rightLeaf
      {kind : Comparison}
      {left right : Expr}
      {nesting : Nat} :
      TakesPart [.leaf left, .mark (.comparison kind)] (.leaf right) []
        .comparison (.binary (.comparison kind) left right) nesting
  | openParen
      {contents : List Symbol}
      {tree : Expr}
      {nesting : Nat}
      (derived : StandsFor .or contents tree nesting) :
      TakesPart [] (.mark .openParen) (contents ++ [.mark .closeParen])
        .comparison tree (nesting + 1)
  | closeParen
      {contents : List Symbol}
      {tree : Expr}
      {nesting : Nat}
      (derived : StandsFor .or contents tree nesting) :
      TakesPart (.mark .openParen :: contents) (.mark .closeParen) []
        .comparison tree (nesting + 1)
  | not
      {form : List Symbol}
      {child : Expr}
      {nesting : Nat}
      (derived : StandsFor .not form child nesting) :
      TakesPart [] (.mark .not) form .not (.not child) nesting
  | join
      {op : BinaryOp}
      {below level : Level}
      {front back : List Symbol}
      {left right : Expr}
      {nesting : Nat}
      (joins : op.Joins below level)
      (leftDerived : StandsFor level front left nesting)
      (rightDerived : StandsFor below back right nesting) :
      TakesPart front (.mark (.operator (.binary op))) back level
        (.binary op left right) nesting

/-- The phrase that a symbol takes part in, somewhere inside a phrase of a given
level, tree and nesting. Any form of the inner phrase may stand in its place. -/
inductive Located
    (level : Level)
    (front : List Symbol)
    (symbol : Symbol)
    (back : List Symbol)
    (tree : Expr)
    (nesting : Nat) : Prop
  | inside
      {innerLevel : Level}
      {outerFront innerFront innerBack outerBack : List Symbol}
      {innerTree : Expr}
      {innerNesting : Nat}
      (front_eq : front = outerFront ++ innerFront)
      (back_eq : back = innerBack ++ outerBack)
      (takesPart : TakesPart innerFront symbol innerBack
        innerLevel innerTree innerNesting)
      (depth_le : innerTree.depth ≤ tree.depth)
      (nesting_le : innerNesting ≤ nesting)
      (unnested : Symbol.mark .openParen ∉ outerFront →
        innerNesting = nesting)
      (replace : ∀ form, StandsFor innerLevel form innerTree innerNesting →
        StandsFor level (outerFront ++ form ++ outerBack) tree nesting) :
      Located level front symbol back tree nesting

/-- An element of a list that is made of two parts is in one of them. -/
theorem append_eq_append_cons
    {α : Type}
    {first second front back : List α}
    {element : α}
    (divided : first ++ second = front ++ element :: back) :
    (∃ middle, first = front ++ element :: middle ∧
        back = middle ++ second) ∨
      ∃ middle, front = first ++ middle ∧
        second = middle ++ element :: back := by
  rcases List.append_eq_append_iff.mp divided with
    ⟨middle, front_eq, second_eq⟩ | ⟨middle, first_eq, rest_eq⟩
  · exact Or.inr ⟨middle, front_eq, second_eq⟩
  · cases middle with
    | nil =>
        refine Or.inr ⟨[], ?_, ?_⟩
        · simpa using first_eq.symm
        · simpa using rest_eq.symm
    | cons head middle =>
        rw [List.cons_append, List.cons.injEq] at rest_eq
        obtain ⟨rfl, back_eq⟩ := rest_eq
        exact Or.inl ⟨middle, first_eq, back_eq⟩

/-- A list of one element is divided at that element only. -/
theorem singleton_eq_append_cons
    {α : Type}
    {single element : α}
    {front back : List α}
    (divided : [single] = front ++ element :: back) :
    front = [] ∧ single = element ∧ back = [] := by
  cases front with
  | nil => simpa using divided
  | cons head front => simp at divided

namespace Located

/-- A phrase that a symbol takes part in is itself a place for the symbol. -/
theorem ofTakesPart
    {level : Level}
    {front back : List Symbol}
    {symbol : Symbol}
    {tree : Expr}
    {nesting : Nat}
    (takesPart : TakesPart front symbol back level tree nesting) :
    Located level front symbol back tree nesting := by
  refine .inside (List.nil_append front).symm (List.append_nil back).symm
    takesPart (Nat.le_refl _) (Nat.le_refl _) (fun _ => rfl) ?_
  intro form derived
  simpa using derived

/-- A place inside a phrase is a place inside any larger phrase. -/
theorem extend
    {inner outer : Level}
    {front back : List Symbol}
    {symbol : Symbol}
    {innerTree outerTree : Expr}
    {innerNesting outerNesting : Nat}
    (before after : List Symbol)
    (located : Located inner front symbol back innerTree innerNesting)
    (depth_le : innerTree.depth ≤ outerTree.depth)
    (nesting_le : innerNesting ≤ outerNesting)
    (unnested : Symbol.mark .openParen ∉ before →
      innerNesting = outerNesting)
    (wrap : ∀ form, StandsFor inner form innerTree innerNesting →
      StandsFor outer (before ++ form ++ after) outerTree outerNesting) :
    Located outer (before ++ front) symbol (back ++ after)
      outerTree outerNesting := by
  obtain ⟨front_eq, back_eq, takesPart, treeDepth, treeNesting,
    innerUnnested, replace⟩ := located
  rename_i outerFront innerFront innerBack outerBack placedTree placedNesting
  have wider_front :
      before ++ front = (before ++ outerFront) ++ innerFront := by
    rw [front_eq, List.append_assoc]
  have wider_back : back ++ after = innerBack ++ (outerBack ++ after) := by
    rw [back_eq, List.append_assoc]
  refine .inside wider_front wider_back takesPart
    (Nat.le_trans treeDepth depth_le) (Nat.le_trans treeNesting nesting_le)
    ?_ ?_
  · intro noParen
    rw [List.mem_append, not_or] at noParen
    exact (innerUnnested noParen.2).trans (unnested noParen.1)
  intro form derived
  have wrapped := wrap _ (replace form derived)
  simpa using wrapped

/-- A symbol of a group is one of the parentheses or belongs to the contents. -/
theorem group
    {contents front back : List Symbol}
    {symbol : Symbol}
    {tree : Expr}
    {nesting : Nat}
    (derived : StandsFor .or contents tree nesting)
    (inContents : ∀ {front back : List Symbol},
      contents = front ++ symbol :: back →
        Located .or front symbol back tree nesting)
    (divided : .mark .openParen :: contents ++ [.mark .closeParen] =
      front ++ symbol :: back) :
    Located .comparison front symbol back tree (nesting + 1) := by
  rcases front with _ | ⟨first, front⟩
  · simp only [List.nil_append, List.cons_append, List.cons.injEq] at divided
    obtain ⟨rfl, rfl⟩ := divided
    exact .ofTakesPart (.openParen derived)
  · simp only [List.cons_append, List.cons.injEq] at divided
    obtain ⟨rfl, divided⟩ := divided
    rcases append_eq_append_cons divided with
      ⟨middle, contents_eq, rfl⟩ | ⟨middle, rfl, last⟩
    · refine extend [.mark .openParen] [.mark .closeParen]
        (inContents contents_eq) (Nat.le_refl _) (Nat.le_succ _) (by simp) ?_
      intro form replaced
      exact .group replaced
    · obtain ⟨rfl, rfl, rfl⟩ := singleton_eq_append_cons last
      rw [List.append_nil]
      exact .ofTakesPart (.closeParen derived)

/-- A symbol of a negation is the operator or belongs to the operand. -/
theorem not
    {form front back : List Symbol}
    {symbol : Symbol}
    {child : Expr}
    {nesting : Nat}
    (derived : StandsFor .not form child nesting)
    (inOperand : ∀ {front back : List Symbol},
      form = front ++ symbol :: back →
        Located .not front symbol back child nesting)
    (divided : .mark .not :: form = front ++ symbol :: back) :
    Located .not front symbol back (.not child) nesting := by
  rcases front with _ | ⟨first, front⟩
  · simp only [List.nil_append, List.cons.injEq] at divided
    obtain ⟨rfl, rfl⟩ := divided
    exact .ofTakesPart (.not derived)
  · simp only [List.cons_append, List.cons.injEq] at divided
    obtain ⟨rfl, divided⟩ := divided
    have wrap :
        ∀ inner, StandsFor .not inner child nesting →
          StandsFor .not ([.mark .not] ++ inner ++ []) (.not child) nesting := by
      intro inner replaced
      rw [List.append_nil]
      exact .not replaced
    have located := extend [.mark .not] [] (inOperand divided) (by simp)
      (Nat.le_refl _) (fun _ => rfl) wrap
    rwa [List.append_nil] at located

/-- A symbol of two joined phrases is the connective or belongs to one of
them. -/
theorem join
    {op : BinaryOp}
    {below level : Level}
    {leftForm rightForm front back : List Symbol}
    {symbol : Symbol}
    {left right : Expr}
    {nesting : Nat}
    (joins : op.Joins below level)
    (leftDerived : StandsFor level leftForm left nesting)
    (rightDerived : StandsFor below rightForm right nesting)
    (inLeft : ∀ {front back : List Symbol},
      leftForm = front ++ symbol :: back →
        Located level front symbol back left nesting)
    (inRight : ∀ {front back : List Symbol},
      rightForm = front ++ symbol :: back →
        Located below front symbol back right nesting)
    (divided : leftForm ++ .mark (.operator (.binary op)) :: rightForm =
      front ++ symbol :: back) :
    Located level front symbol back (.binary op left right) nesting := by
  have left_le : left.depth ≤ (Expr.binary op left right).depth := by
    rw [Expr.depth_binary]
    omega
  have right_le : right.depth ≤ (Expr.binary op left right).depth := by
    rw [Expr.depth_binary]
    omega
  rcases append_eq_append_cons divided with
    ⟨middle, left_eq, rfl⟩ | ⟨middle, rfl, rest⟩
  · refine extend [] _ (inLeft left_eq) left_le (Nat.le_refl _)
      (fun _ => rfl) ?_
    intro form replaced
    exact .join joins replaced rightDerived
  · rcases middle with _ | ⟨head, middle⟩
    · simp only [List.nil_append, List.cons.injEq] at rest
      obtain ⟨rfl, rfl⟩ := rest
      rw [List.append_nil]
      exact .ofTakesPart (.join joins leftDerived rightDerived)
    · simp only [List.cons_append, List.cons.injEq] at rest
      obtain ⟨rfl, rest⟩ := rest
      have wrap :
          ∀ inner, StandsFor below inner right nesting →
            StandsFor level
              (leftForm ++ [.mark (.operator (.binary op))] ++ inner ++ [])
              (.binary op left right) nesting := by
        intro inner replaced
        simpa using StandsFor.join joins leftDerived replaced
      have located :=
        extend (leftForm ++ [.mark (.operator (.binary op))]) []
          (inRight rest) right_le (Nat.le_refl _) (fun _ => rfl) wrap
      simpa using located

end Located

/-- Every symbol of a sentential form that stands for an expression takes part
in some phrase. -/
theorem StandsFor.locate
    {level : Level}
    {form front back : List Symbol}
    {symbol : Symbol}
    {tree : Expr}
    {nesting : Nat}
    (derived : StandsFor level form tree nesting)
    (divided : form = front ++ symbol :: back) :
    Located level front symbol back tree nesting := by
  -- The induction is on the derivation; in each case the symbol is named by the
  -- last rule or belongs to one of the phrases that the rule puts together.
  induction derived generalizing front back with
  | leaf =>
      obtain ⟨rfl, rfl, rfl⟩ := singleton_eq_append_cons divided
      exact .ofTakesPart .leaf
  | phrase =>
      obtain ⟨rfl, rfl, rfl⟩ := singleton_eq_append_cons divided
      exact .ofTakesPart .phrase
  | comparison =>
      rcases front with _ | ⟨first, _ | ⟨second, front⟩⟩
      · simp only [List.nil_append, List.cons.injEq] at divided
        obtain ⟨rfl, rfl⟩ := divided
        exact .ofTakesPart .leftLeaf
      · simp only [List.cons_append, List.nil_append,
          List.cons.injEq] at divided
        obtain ⟨rfl, rfl, rfl⟩ := divided
        exact .ofTakesPart .comparison
      · simp only [List.cons_append, List.cons.injEq] at divided
        obtain ⟨rfl, rfl, last⟩ := divided
        obtain ⟨rfl, rfl, rfl⟩ := singleton_eq_append_cons last
        exact .ofTakesPart .rightLeaf
  | group derived hypothesis => exact .group derived hypothesis divided
  | not derived hypothesis => exact .not derived hypothesis divided
  | join joins leftDerived rightDerived leftHypothesis rightHypothesis =>
      exact .join joins leftDerived rightDerived leftHypothesis rightHypothesis
        divided
  | @raise level raised form tree nesting higher derived hypothesis =>
      have wrap :
          ∀ inner, StandsFor level inner tree nesting →
            StandsFor raised ([] ++ inner ++ []) tree nesting := by
        intro inner replaced
        simpa using StandsFor.raise higher replaced
      have located := Located.extend [] [] (hypothesis divided)
        (Nat.le_refl _) (Nat.le_refl _) (fun _ => rfl) wrap
      simpa using located

/-! ## The phrase of a given symbol -/

namespace StandsFor

/-- A phrase may be taken apart where no parenthesis is open. -/
theorem replacePhrase
    {level inner : Level}
    {front form back : List Symbol}
    {tree innerTree : Expr}
    {nesting : Nat}
    (derived : StandsFor level (front ++ .phrase inner innerTree :: back)
      tree nesting)
    (noParen : Symbol.mark .openParen ∉ front)
    (formDerived : StandsFor inner form innerTree nesting) :
    StandsFor level (front ++ form ++ back) tree nesting := by
  obtain ⟨front_eq, back_eq, takesPart, -, -, unnested, replace⟩ :=
    derived.locate rfl
  cases takesPart
  rw [List.append_nil] at front_eq
  rw [List.nil_append] at back_eq
  subst front_eq back_eq
  apply replace
  rwa [unnested noParen]

/-- The group of a first opening parenthesis. -/
theorem locateOpenParen
    {level : Level}
    {front back : List Symbol}
    {tree : Expr}
    {nesting : Nat}
    (derived : StandsFor level (front ++ .mark .openParen :: back) tree nesting)
    (noParen : Symbol.mark .openParen ∉ front) :
    ∃ (contents rest : List Symbol) (inside : Expr) (inner : Nat),
      back = contents ++ .mark .closeParen :: rest ∧
      nesting = inner + 1 ∧
      inside.depth ≤ tree.depth ∧
      StandsFor .or contents inside inner ∧
      StandsFor level (front ++ .phrase .comparison inside :: rest)
        tree nesting := by
  obtain ⟨front_eq, back_eq, takesPart, depth_le, -, unnested, replace⟩ :=
    derived.locate rfl
  cases takesPart with
  | @openParen contents _ inner contentsDerived =>
      rw [List.append_nil] at front_eq
      subst front_eq
      refine ⟨contents, _, _, inner, by simpa using back_eq,
        (unnested noParen).symm, depth_le, contentsDerived, ?_⟩
      simpa using replace _ .phrase

/-- The operand of a negation. -/
theorem locateNot
    {level : Level}
    {front back : List Symbol}
    {tree : Expr}
    {nesting : Nat}
    (derived : StandsFor level (front ++ .mark .not :: back) tree nesting) :
    ∃ (operand rest : List Symbol) (child : Expr) (inner : Nat),
      back = operand ++ rest ∧
      child.depth < tree.depth ∧
      StandsFor .not operand child inner ∧
      StandsFor level (front ++ .phrase .not (.not child) :: rest)
        tree nesting := by
  obtain ⟨front_eq, back_eq, takesPart, depth_le, -, -, replace⟩ :=
    derived.locate rfl
  cases takesPart with
  | not operandDerived =>
      rw [List.append_nil] at front_eq
      subst front_eq
      refine ⟨_, _, _, _, back_eq, depth_le, operandDerived, ?_⟩
      simpa using replace _ .phrase

/-- The operands of a comparison. -/
theorem locateComparison
    {level : Level}
    {kind : Comparison}
    {front back : List Symbol}
    {tree : Expr}
    {nesting : Nat}
    (derived : StandsFor level (front ++ .mark (.comparison kind) :: back)
      tree nesting) :
    ∃ (outer rest : List Symbol) (left right : Expr),
      front = outer ++ [.leaf left] ∧
      back = .leaf right :: rest ∧
      max left.depth right.depth < tree.depth ∧
      StandsFor level
        (outer ++
          .phrase .comparison (.binary (.comparison kind) left right) :: rest)
        tree nesting := by
  obtain ⟨front_eq, back_eq, takesPart, depth_le, -, -, replace⟩ :=
    derived.locate rfl
  cases takesPart with
  | comparison =>
      refine ⟨_, _, _, _, front_eq, back_eq, depth_le, ?_⟩
      simpa using replace _ .phrase
  | join joins leftDerived rightDerived => cases joins

/-- The operands of a connective. -/
theorem locateJoin
    {level below joined : Level}
    {op : BinaryOp}
    {front back : List Symbol}
    {tree : Expr}
    {nesting : Nat}
    (joins : op.Joins below joined)
    (derived : StandsFor level
      (front ++ .mark (.operator (.binary op)) :: back) tree nesting) :
    ∃ (outer leftForm rightForm rest : List Symbol)
        (left right : Expr) (inner : Nat),
      front = outer ++ leftForm ∧
      back = rightForm ++ rest ∧
      max left.depth right.depth < tree.depth ∧
      StandsFor joined leftForm left inner ∧
      StandsFor below rightForm right inner ∧
      StandsFor level
        (outer ++ .phrase joined (.binary op left right) :: rest)
        tree nesting := by
  obtain ⟨front_eq, back_eq, takesPart, depth_le, -, -, replace⟩ :=
    derived.locate rfl
  cases takesPart with
  | comparison => cases joins
  | join others leftDerived rightDerived =>
      obtain ⟨rfl, rfl⟩ := joins.unique others
      refine ⟨_, _, _, _, _, _, _, front_eq, back_eq, depth_le, leftDerived,
        rightDerived, ?_⟩
      simpa using replace _ .phrase

end StandsFor

/-- A form in which no operator is left that could make a phrase of its level
is a single symbol. -/
theorem StandsFor.eq_singleton
    {level : Level}
    {form : List Symbol}
    {tree : Expr}
    {nesting : Nat}
    (derived : StandsFor level form tree nesting)
    (loose : ∀ kind, Symbol.mark kind ∈ form → level.rank < kind.rank) :
    form = [.leaf tree] ∨
      ∃ inner : Level, form = [.phrase inner tree] ∧
        inner.rank ≤ level.rank := by
  induction derived with
  | leaf => exact Or.inl rfl
  | phrase => exact Or.inr ⟨_, rfl, Nat.le_refl _⟩
  | @comparison kind left right nesting =>
      have impossible := loose (.comparison kind) (by simp)
      exact absurd impossible (Nat.lt_irrefl _)
  | group derived hypothesis =>
      have impossible := loose .openParen (by simp)
      exact absurd impossible (Nat.not_lt_zero _)
  | not derived hypothesis =>
      have impossible := loose .not (by simp)
      exact absurd impossible (Nat.lt_irrefl _)
  | @join op below level front back left right nesting joins leftDerived
      rightDerived leftHypothesis rightHypothesis =>
      have impossible := loose (.operator (.binary op)) (by simp)
      rw [TokenKind.rank, joins.level_eq] at impossible
      exact absurd impossible (Nat.lt_irrefl _)
  | raise higher derived hypothesis =>
      rcases hypothesis (fun kind member =>
          Nat.lt_of_le_of_lt higher (loose kind member)) with
        isLeaf | ⟨inner, isPhrase, inner_le⟩
      · exact Or.inl isLeaf
      · exact Or.inr ⟨inner, isPhrase, Nat.le_trans inner_le higher⟩

/-! ## Parentheses -/

/-- The number of parentheses that are open behind a form, when `inner` were
open before it; none when the form closes more than that. -/
def openAfter (inner : Nat) : List Symbol → Option Nat
  | [] => some inner
  | .mark .openParen :: form => openAfter (inner + 1) form
  | .mark .closeParen :: form =>
      match inner with
      | 0 => none
      | outer + 1 => openAfter outer form
  | _ :: form => openAfter inner form

theorem openAfter_of_ne
    {symbol : Symbol}
    (notOpen : symbol ≠ .mark .openParen)
    (notClose : symbol ≠ .mark .closeParen)
    (inner : Nat)
    (form : List Symbol) :
    openAfter inner (symbol :: form) = openAfter inner form := by
  cases symbol with
  | leaf tree => rfl
  | phrase level tree => rfl
  | mark kind =>
      cases kind with
      | operator operator => rfl
      | identifier => rfl
      | literal => rfl
      | openParen => exact absurd rfl notOpen
      | closeParen => exact absurd rfl notClose

/-- A form that stands for an expression closes the parentheses that it opens,
and no others. -/
theorem StandsFor.openAfter_append
    {level : Level}
    {form : List Symbol}
    {tree : Expr}
    {nesting : Nat}
    (derived : StandsFor level form tree nesting)
    (inner : Nat)
    (rest : List Symbol) :
    openAfter inner (form ++ rest) = openAfter inner rest := by
  induction derived generalizing inner rest with
  | leaf => rfl
  | phrase => rfl
  | comparison => rfl
  | group derived hypothesis =>
      simp only [List.cons_append, List.append_assoc, openAfter, hypothesis,
        List.nil_append]
  | not derived hypothesis =>
      simp only [List.cons_append, openAfter, hypothesis]
  | join joins leftDerived rightDerived leftHypothesis rightHypothesis =>
      simp only [List.append_assoc, List.cons_append, leftHypothesis,
        openAfter, rightHypothesis]
  | raise higher derived hypothesis => exact hypothesis inner rest

theorem StandsFor.ne_nil
    {level : Level}
    {form : List Symbol}
    {tree : Expr}
    {nesting : Nat}
    (derived : StandsFor level form tree nesting) :
    form ≠ [] := by
  induction derived with
  | raise higher derived hypothesis => exact hypothesis
  | _ => simp

/-! ## Lists of tokens -/

namespace Token

theorem symbol_eq_leaf_iff
    {token : Token}
    {tree : Expr} :
    token.symbol = .leaf tree ↔ token.leaf? = some tree := by
  unfold symbol
  split
  · rename_i leaf isLeaf
    simp [isLeaf]
  · rename_i noLeaf
    simp [noLeaf]

theorem symbol_ne_phrase
    {token : Token}
    {level : Level}
    {tree : Expr} :
    token.symbol ≠ .phrase level tree := by
  unfold symbol
  split <;> simp

theorem kind_of_symbol_eq_mark
    {token : Token}
    {kind : TokenKind}
    (isMark : token.symbol = .mark kind) :
    token.kind = kind := by
  unfold symbol at isMark
  split at isMark
  · simp at isMark
  · simpa using isMark

theorem symbol_of_kind
    {token : Token}
    {kind : TokenKind}
    (isKind : token.kind = kind)
    (notIdentifier : kind ≠ .identifier)
    (notLiteral : kind ≠ .literal) :
    token.symbol = .mark kind := by
  unfold symbol leaf?
  subst isKind
  split <;> simp_all

end Token

/-- A phrase of one level is a phrase of every looser level. -/
theorem Derives.raise
    {level raised : Level}
    {tokens : List Token}
    {tree : Expr}
    {nesting : Nat}
    (derived : Derives level tokens tree nesting)
    (higher : level.rank ≤ raised.rank) :
    Derives raised tokens tree nesting := by
  cases raised with
  | comparison =>
      cases level with
      | comparison => exact derived
      | not => simp [Level.rank] at higher
      | and => simp [Level.rank] at higher
      | or => simp [Level.rank] at higher
  | not =>
      cases level with
      | comparison => exact .notOfComparison derived
      | not => exact derived
      | and => simp [Level.rank] at higher
      | or => simp [Level.rank] at higher
  | and =>
      cases level with
      | comparison => exact .andOfNot (.notOfComparison derived)
      | not => exact .andOfNot derived
      | and => exact derived
      | or => simp [Level.rank] at higher
  | or =>
      cases level with
      | comparison =>
          exact .orOfAnd (.andOfNot (.notOfComparison derived))
      | not => exact .orOfAnd (.andOfNot derived)
      | and => exact .orOfAnd derived
      | or => exact derived

/-- What the grammar derives, the sentential form of the tokens stands for. -/
theorem Derives.standsFor
    {level : Level}
    {tokens : List Token}
    {tree : Expr}
    {nesting : Nat}
    (derived : Derives level tokens tree nesting) :
    StandsFor level (tokens.map Token.symbol) tree nesting := by
  induction derived with
  | operand isLeaf =>
      rw [List.map_cons, Token.symbol_eq_leaf_iff.mpr isLeaf]
      exact .leaf
  | comparison leftLeaf isOperator rightLeaf =>
      simp only [List.map_cons, List.map_nil,
        Token.symbol_eq_leaf_iff.mpr leftLeaf,
        Token.symbol_eq_leaf_iff.mpr rightLeaf,
        Token.symbol_of_kind isOperator (by simp) (by simp)]
      exact .comparison
  | group isOpening derived isClosing hypothesis =>
      simp only [List.map_append, List.map_cons, List.map_nil,
        Token.symbol_of_kind isOpening (by simp) (by simp),
        Token.symbol_of_kind isClosing (by simp) (by simp)]
      exact .group hypothesis
  | notOfComparison derived hypothesis =>
      exact hypothesis.raise (by decide)
  | not isOperator derived hypothesis =>
      rw [List.map_cons, Token.symbol_of_kind isOperator (by simp) (by simp)]
      exact .not hypothesis
  | andOfNot derived hypothesis => exact hypothesis.raise (by decide)
  | and leftDerived isOperator rightDerived leftHypothesis rightHypothesis =>
      rw [List.map_append, List.map_cons,
        Token.symbol_of_kind isOperator (by simp) (by simp)]
      exact .join .and (leftHypothesis.mono (Nat.le_max_left _ _))
        (rightHypothesis.mono (Nat.le_max_right _ _))
  | orOfAnd derived hypothesis => exact hypothesis.raise (by decide)
  | or leftDerived isOperator rightDerived leftHypothesis rightHypothesis =>
      rw [List.map_append, List.map_cons,
        Token.symbol_of_kind isOperator (by simp) (by simp)]
      exact .join .or (leftHypothesis.mono (Nat.le_max_left _ _))
        (rightHypothesis.mono (Nat.le_max_right _ _))

theorem Derives.ne_nil
    {level : Level}
    {tokens : List Token}
    {tree : Expr}
    {nesting : Nat}
    (derived : Derives level tokens tree nesting) :
    tokens ≠ [] := by
  rintro rfl
  exact derived.standsFor.ne_nil rfl

/-- What the sentential form of a list of tokens stands for, the grammar
derives. -/
theorem StandsFor.derives
    {level : Level}
    {tokens : List Token}
    {tree : Expr}
    {nesting : Nat}
    (derived : StandsFor level (tokens.map Token.symbol) tree nesting) :
    ∃ reached ≤ nesting, Derives level tokens tree reached := by
  generalize form_eq : tokens.map Token.symbol = form at derived
  induction derived generalizing tokens with
  | leaf =>
      obtain ⟨token, rfl, isLeaf⟩ := List.map_eq_singleton_iff.mp form_eq
      exact ⟨0, Nat.zero_le _, .operand (Token.symbol_eq_leaf_iff.mp isLeaf)⟩
  | phrase =>
      obtain ⟨token, rfl, isPhrase⟩ := List.map_eq_singleton_iff.mp form_eq
      exact absurd isPhrase Token.symbol_ne_phrase
  | comparison =>
      obtain ⟨first, rest, rfl, isLeft, rest_eq⟩ :=
        List.map_eq_cons_iff.mp form_eq
      obtain ⟨operator, rest, rfl, isOperator, rest_eq⟩ :=
        List.map_eq_cons_iff.mp rest_eq
      obtain ⟨second, rfl, isRight⟩ := List.map_eq_singleton_iff.mp rest_eq
      exact ⟨0, Nat.zero_le _,
        .comparison (Token.symbol_eq_leaf_iff.mp isLeft)
          (Token.kind_of_symbol_eq_mark isOperator)
          (Token.symbol_eq_leaf_iff.mp isRight)⟩
  | group derived hypothesis =>
      obtain ⟨front, back, rfl, front_eq, back_eq⟩ :=
        List.map_eq_append_iff.mp form_eq
      obtain ⟨opening, contents, rfl, isOpening, contents_eq⟩ :=
        List.map_eq_cons_iff.mp front_eq
      obtain ⟨closing, rfl, isClosing⟩ := List.map_eq_singleton_iff.mp back_eq
      obtain ⟨reached, reached_le, contentsDerived⟩ := hypothesis contents_eq
      exact ⟨reached + 1, Nat.succ_le_succ reached_le,
        .group (Token.kind_of_symbol_eq_mark isOpening) contentsDerived
          (Token.kind_of_symbol_eq_mark isClosing)⟩
  | not derived hypothesis =>
      obtain ⟨operator, rest, rfl, isOperator, rest_eq⟩ :=
        List.map_eq_cons_iff.mp form_eq
      obtain ⟨reached, reached_le, childDerived⟩ := hypothesis rest_eq
      exact ⟨reached, reached_le,
        .not (Token.kind_of_symbol_eq_mark isOperator) childDerived⟩
  | join joins leftDerived rightDerived leftHypothesis rightHypothesis =>
      obtain ⟨front, rest, rfl, front_eq, rest_eq⟩ :=
        List.map_eq_append_iff.mp form_eq
      obtain ⟨operator, back, rfl, isOperator, back_eq⟩ :=
        List.map_eq_cons_iff.mp rest_eq
      obtain ⟨left, left_le, frontDerived⟩ := leftHypothesis front_eq
      obtain ⟨right, right_le, backDerived⟩ := rightHypothesis back_eq
      refine ⟨max left right, Nat.max_le.mpr ⟨left_le, right_le⟩, ?_⟩
      have isKind := Token.kind_of_symbol_eq_mark isOperator
      cases joins with
      | and => exact .and frontDerived isKind backDerived
      | or => exact .or frontDerived isKind backDerived
  | raise higher derived hypothesis =>
      obtain ⟨reached, reached_le, lower⟩ := hypothesis form_eq
      exact ⟨reached, reached_le, lower.raise higher⟩

end FilterLang
