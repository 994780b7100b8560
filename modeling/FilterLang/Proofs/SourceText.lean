import FilterLang.Compile
import FilterLang.Proofs.ParseGrammar
import FilterLang.Proofs.Pieces

/-!
# Source texts and the expressions they stand for

The source text of an expressible expression divides into tokens from which the
grammar derives that expression, with no more parentheses open at once than the
expression is deep. Conversely every piece that the rules divide off is a name
or a value that can be written, so nothing but expressible expressions is
compiled.
-/

namespace FilterLang

open RuleTable

/-! ## From expressions to tokens -/

/-- An operator as it stands in a source text. -/
def Operator.spelling : Operator → List Char
  | .binary (.comparison kind) => kind.symbol.toList
  | operator => operator.name.toList

/-- A text ends, or goes on with a character that no word and no keyword
contains. -/
def Delimited (text : List Char) : Prop :=
  ∀ character ∈ text.head?, character = ' ' ∨ character = ')'

theorem Delimited.stopsRun
    {inClass : Char → Bool}
    {text : List Char}
    (delimited : Delimited text)
    (noSpace : inClass ' ' = false)
    (noParen : inClass ')' = false) :
    StopsRun inClass text := by
  intro character first
  rcases delimited character first with rfl | rfl
  · exact noSpace
  · exact noParen

theorem takes_blank_cons
    {offset : Nat}
    {character : Char}
    {text : List Char}
    {tokens : List Token}
    {last : Cursor}
    (blank : LexicalClass.isBlank character)
    (nonempty : tokens ≠ [])
    (takes : Cursor.Takes standard ⟨offset + character.utf8Size, text⟩ tokens
      last) :
    Cursor.Takes standard ⟨offset, character :: text⟩ tokens last := by
  cases takes with
  | nil => exact absurd rfl nonempty
  | cons taken later =>
      rw [← Cursor.nextToken_blank_cons offset text blank] at taken
      exact .cons taken later

/-- A piece that ends in front of a text is taken as one token. -/
theorem takes_piece
    (offset : Nat)
    (kind : TokenKind)
    (found : List Char)
    {rest : List Char}
    (isPiece : (LexicalClass.token kind).IsPiece found)
    (stops : StopsRun ((LexicalClass.token kind).goesOn found) rest) :
    ∃ (token : Token) (later : Nat),
      Cursor.Takes standard ⟨offset, found ++ rest⟩ [token] ⟨later, rest⟩ ∧
        token.kind = kind ∧
          token.text = String.ofList (Lexeme.tokenText kind found) := by
  let cursor : Cursor := ⟨offset, found ++ rest⟩
  have taken : cursor.nextToken standard =
      (.ok (some (cursor.token kind ⟨found, rest⟩)),
        cursor.past ⟨found, rest⟩) :=
    Cursor.nextToken_of_token (firstMatch?_piece isPiece stops)
  exact ⟨_, _, .cons taken .nil, rfl, rfl⟩

/-- In front of a delimiter, a source text divides into tokens from which the
grammar derives an expression at a level, with no more parentheses open at once
than a bound. -/
def ReadsAs
    (level : Level)
    (source : List Char)
    (tree : Expr)
    (bound : Nat) : Prop :=
  ∀ (offset : Nat) (rest : List Char),
    Delimited rest →
      ∃ (tokens : List Token) (nesting later : Nat),
        Cursor.Takes standard ⟨offset, source ++ rest⟩ tokens ⟨later, rest⟩ ∧
          Derives level tokens tree nesting ∧ nesting ≤ bound

theorem ReadsAs.raise
    {level raised : Level}
    {source : List Char}
    {tree : Expr}
    {bound raisedBound : Nat}
    (reads : ReadsAs level source tree bound)
    (higher : level.rank ≤ raised.rank)
    (bound_le : bound ≤ raisedBound) :
    ReadsAs raised source tree raisedBound := by
  intro offset rest delimited
  obtain ⟨tokens, nesting, later, takes, derived, nesting_le⟩ :=
    reads offset rest delimited
  exact ⟨tokens, nesting, later, takes, derived.raise higher,
    Nat.le_trans nesting_le bound_le⟩

theorem delimited_cons_space (text : List Char) : Delimited (' ' :: text) := by
  simp [Delimited]

theorem delimited_cons_closeParen (text : List Char) :
    Delimited (')' :: text) := by
  simp [Delimited]

theorem ReadsAs.parenthesized
    {source : List Char}
    {tree : Expr}
    {bound : Nat}
    (reads : ReadsAs .or source tree bound) :
    ReadsAs .comparison (Expr.parenthesized source) tree (bound + 1) := by
  intro offset rest _
  obtain ⟨opening, start, openTaken, isOpening, -⟩ :=
    takes_piece offset .openParen ['('] rfl
      (stopsRun_false (source ++ ')' :: rest))
  obtain ⟨tokens, nesting, stop, takes, derived, nesting_le⟩ :=
    reads start (')' :: rest) (delimited_cons_closeParen rest)
  obtain ⟨closing, later, closeTaken, isClosing, -⟩ :=
    takes_piece stop .closeParen [')'] rfl (stopsRun_false rest)
  refine ⟨opening :: tokens ++ [closing], nesting + 1, later, ?_,
    .group isOpening derived isClosing, by omega⟩
  have shape :
      Expr.parenthesized source ++ rest = '(' :: (source ++ ')' :: rest) := by
    simp [Expr.parenthesized]
  rw [shape]
  exact (openTaken.append takes).append closeTaken

theorem takes_operator
    (operator : Operator)
    (offset : Nat)
    (text : List Char) :
    ∃ (token : Token) (later : Nat),
      Cursor.Takes standard ⟨offset, operator.spelling ++ ' ' :: text⟩ [token]
          ⟨later, ' ' :: text⟩ ∧
        token.kind = .operator operator := by
  have isPiece :
      (LexicalClass.token (.operator operator)).IsPiece operator.spelling := by
    cases operator with
    | not => rfl
    | binary op => cases op <;> rfl
  have stops :
      StopsRun ((LexicalClass.token (.operator operator)).goesOn
        operator.spelling) (' ' :: text) := by
    rintro character ⟨⟩
    cases operator with
    | not => rfl
    | binary op =>
        cases op with
        | comparison kind => cases kind <;> rfl
        | and => rfl
        | or => rfl
  obtain ⟨token, later, takes, isOperator, -⟩ :=
    takes_piece offset (.operator operator) operator.spelling isPiece stops
  exact ⟨token, later, takes, isOperator⟩

theorem withoutQuotes_of_isPattern
    {pattern : List Char}
    (isPattern : IsPattern pattern) :
    Lexeme.withoutQuotes pattern = pattern := by
  cases isPattern
  rfl

/-- A leaf is written as one token. -/
theorem takes_leaf
    {leaf : Expr}
    {rest : List Char}
    (expressible : leaf.Expressible)
    (isLeaf : leaf.isLeaf)
    (delimited : Delimited rest)
    (offset : Nat) :
    ∃ (token : Token) (later : Nat),
      Cursor.Takes standard ⟨offset, leaf.source ++ rest⟩ [token]
          ⟨later, rest⟩ ∧
        token.leaf? = some leaf := by
  cases expressible with
  | @identifier name isWord noKeyword =>
      obtain ⟨token, later, takes, kind_eq, text_eq⟩ :=
        takes_piece offset .identifier name.toList
          ⟨isWord_iff_isRun.mp isWord, noKeyword⟩ (delimited.stopsRun rfl rfl)
      refine ⟨token, later, takes, ?_⟩
      simp [Token.leaf?, kind_eq, text_eq, Lexeme.tokenText]
  | @literal value writable =>
      rw [Expr.source, Expr.literalSource]
      split
      · rename_i hasQuote
        have isPattern : IsPattern value.toList :=
          writable.resolve_left fun noQuote => noQuote hasQuote
        have stops :
            StopsRun (LexicalClass.literalGoesOn value.toList) rest := by
          rw [LexicalClass.literalGoesOn_of_isPattern isPattern]
          exact delimited.stopsRun (by decide) (by decide)
        obtain ⟨token, later, takes, kind_eq, text_eq⟩ :=
          takes_piece offset .literal value.toList (Or.inr (Or.inr isPattern))
            stops
        refine ⟨token, later, takes, ?_⟩
        simp [Token.leaf?, kind_eq, text_eq, Lexeme.tokenText,
          withoutQuotes_of_isPattern isPattern]
      · rename_i noQuote
        obtain ⟨token, later, takes, kind_eq, text_eq⟩ :=
          takes_piece offset .literal ('"' :: value.toList ++ ['"'])
            (Or.inr (Or.inl ⟨value.toList, noQuote, rfl⟩))
            (stopsRun_false rest)
        refine ⟨token, later, takes, ?_⟩
        simp [Token.leaf?, kind_eq, text_eq, Lexeme.tokenText,
          Lexeme.withoutQuotes]
  | not childExpressible => simp [Expr.isLeaf, Expr.value?] at isLeaf
  | comparison => simp [Expr.isLeaf, Expr.value?] at isLeaf
  | and => simp [Expr.isLeaf, Expr.value?] at isLeaf
  | or => simp [Expr.isLeaf, Expr.value?] at isLeaf

theorem ReadsAs.not
    {source : List Char}
    {child : Expr}
    {bound : Nat}
    (reads : ReadsAs .comparison source child bound) :
    ReadsAs .not ("NOT ".toList ++ source) (.not child) bound := by
  intro offset rest delimited
  obtain ⟨operator, space, operatorTaken, isOperator⟩ :=
    takes_operator .not offset (source ++ rest)
  obtain ⟨tokens, nesting, later, takes, derived, nesting_le⟩ :=
    reads (space + ' '.utf8Size) rest delimited
  refine ⟨operator :: tokens, nesting, later, ?_,
    .not isOperator (.notOfComparison derived), nesting_le⟩
  exact operatorTaken.append (takes_blank_cons (by decide) derived.ne_nil takes)

theorem ReadsAs.comparison
    {kind : Comparison}
    {left right : Expr}
    (leftExpressible : left.Expressible)
    (rightExpressible : right.Expressible)
    (leftLeaf : left.isLeaf)
    (rightLeaf : right.isLeaf) :
    ReadsAs .comparison
      (left.source ++ ' ' :: kind.symbol.toList ++ ' ' :: right.source)
      (.binary (.comparison kind) left right) 0 := by
  intro offset rest delimited
  obtain ⟨first, space, firstTaken, firstLeaf⟩ :=
    takes_leaf leftExpressible leftLeaf (delimited_cons_space _) offset
  obtain ⟨operator, gap, operatorTaken, isOperator⟩ :=
    takes_operator (.binary (.comparison kind)) (space + ' '.utf8Size)
      (right.source ++ rest)
  obtain ⟨second, later, secondTaken, secondLeaf⟩ :=
    takes_leaf rightExpressible rightLeaf delimited (gap + ' '.utf8Size)
  refine ⟨[first] ++ ([operator] ++ [second]), 0, later, ?_,
    .comparison firstLeaf isOperator secondLeaf, Nat.le_refl 0⟩
  have operatorTakenHere :=
    takes_blank_cons (by decide) (List.cons_ne_nil operator []) operatorTaken
  have secondTakenHere :=
    takes_blank_cons (by decide) (List.cons_ne_nil second []) secondTaken
  have shape :
      left.source ++ ' ' :: kind.symbol.toList ++ ' ' :: right.source ++ rest =
        left.source ++
          ' ' :: (kind.symbol.toList ++ ' ' :: (right.source ++ rest)) := by
    simp
  rw [shape]
  exact firstTaken.append (operatorTakenHere.append secondTakenHere)

theorem ReadsAs.join
    {op : BinaryOp}
    {below level : Level}
    {leftSource rightSource : List Char}
    {left right : Expr}
    {leftBound rightBound : Nat}
    (joins : op.Joins below level)
    (leftReads : ReadsAs .comparison leftSource left leftBound)
    (rightReads : ReadsAs .comparison rightSource right rightBound) :
    ReadsAs level (leftSource ++ ' ' :: op.name.toList ++ ' ' :: rightSource)
      (.binary op left right) (max leftBound rightBound) := by
  intro offset rest delimited
  obtain ⟨front, frontNesting, space, frontTaken, leftDerived, front_le⟩ :=
    leftReads offset (' ' :: (op.name.toList ++ ' ' :: (rightSource ++ rest)))
      (delimited_cons_space _)
  obtain ⟨operator, gap, operatorTaken, isOperator⟩ :=
    takes_operator (.binary op) (space + ' '.utf8Size) (rightSource ++ rest)
  obtain ⟨back, backNesting, later, backTaken, rightDerived, back_le⟩ :=
    rightReads (gap + ' '.utf8Size) rest delimited
  have operatorTakenHere :=
    takes_blank_cons (by decide) (List.cons_ne_nil operator []) operatorTaken
  have backTakenHere :=
    takes_blank_cons (by decide) rightDerived.ne_nil backTaken
  have spelling_eq : Operator.spelling (.binary op) = op.name.toList := by
    cases joins <;> rfl
  rw [spelling_eq] at operatorTakenHere
  refine ⟨front ++ ([operator] ++ back), max frontNesting backNesting, later,
    ?_, ?_, by omega⟩
  · have shape :
        leftSource ++ ' ' :: op.name.toList ++ ' ' :: rightSource ++ rest =
          leftSource ++
            ' ' :: (op.name.toList ++ ' ' :: (rightSource ++ rest)) := by
      simp
    rw [shape]
    exact frontTaken.append (operatorTakenHere.append backTakenHere)
  · have leftRaised : Derives level front left frontNesting :=
      leftDerived.raise (by cases joins <;> decide)
    have rightRaised : Derives below back right backNesting :=
      rightDerived.raise (by cases joins <;> decide)
    cases joins with
    | and => exact .and leftRaised isOperator rightRaised
    | or => exact .or leftRaised isOperator rightRaised

theorem ReadsAs.leaf
    {leaf : Expr}
    (expressible : leaf.Expressible)
    (isLeaf : leaf.isLeaf) :
    ReadsAs .comparison leaf.source leaf 0 := by
  intro offset rest delimited
  obtain ⟨token, later, takes, isLeafToken⟩ :=
    takes_leaf expressible isLeaf delimited offset
  exact ⟨[token], 0, later, takes, .operand isLeafToken, Nat.le_refl 0⟩

/-- The source text of an expressible expression reads as that expression. -/
theorem readsAs_source
    {tree : Expr}
    (expressible : tree.Expressible) :
    ReadsAs .or tree.source tree tree.depth := by
  have depth_eq (op : BinaryOp) (left right : Expr) :
      max (left.depth + 1) (right.depth + 1) =
        (Expr.binary op left right).depth := by
    rw [Expr.depth_binary]
    omega
  induction expressible with
  | identifier isWord noKeyword =>
      have reads := ReadsAs.leaf (.identifier isWord noKeyword) rfl
      exact reads.raise (by decide) (Nat.le_refl 0)
  | literal writable =>
      have reads := ReadsAs.leaf (.literal writable) rfl
      exact reads.raise (by decide) (Nat.le_refl 0)
  | not childExpressible hypothesis =>
      have reads := hypothesis.parenthesized.not
      exact reads.raise (by decide) (Nat.le_refl _)
  | comparison leftExpressible rightExpressible leftLeaf rightLeaf =>
      rename_i kind left right _ _
      have reads :
          ReadsAs .comparison _ (.binary (.comparison kind) left right) 0 :=
        .comparison leftExpressible rightExpressible leftLeaf rightLeaf
      exact reads.raise (by decide) (Nat.zero_le _)
  | and leftExpressible rightExpressible leftHypothesis rightHypothesis =>
      have reads := ReadsAs.join .and leftHypothesis.parenthesized
        rightHypothesis.parenthesized
      exact reads.raise (by decide) (Nat.le_of_eq (depth_eq .and _ _))
  | or leftExpressible rightExpressible leftHypothesis rightHypothesis =>
      have reads := ReadsAs.join .or leftHypothesis.parenthesized
        rightHypothesis.parenthesized
      exact reads.raise (by decide) (Nat.le_of_eq (depth_eq .or _ _))

/-! ## From tokens to expressions -/

/-- A value that the rules divide off can be written. -/
theorem writable_of_isPiece
    {piece : List Char}
    (isPiece : (LexicalClass.token .literal).IsPiece piece) :
    '"' ∉ Lexeme.withoutQuotes piece ∨
      IsPattern (Lexeme.withoutQuotes piece) := by
  rcases isPiece with isRun | ⟨body, noQuote, rfl⟩ | isPattern
  · left
    obtain ⟨first, run, rfl, isDigit, wordCharacters⟩ := isRun
    have notQuote : ∀ character ∈ first :: run, character ≠ '"' := by
      intro character member
      rcases List.mem_cons.mp member with rfl | inRun
      · rintro rfl
        simp at isDigit
      · rintro rfl
        exact absurd (wordCharacters '"' inRun) (by decide)
    have headNotQuote : (first :: run).head? ≠ some '"' := by
      rw [List.head?_cons, Ne, Option.some.injEq]
      exact notQuote first List.mem_cons_self
    rw [Lexeme.withoutQuotes_of_head_ne_quote headNotQuote]
    intro member
    exact notQuote '"' member rfl
  · left
    simpa [Lexeme.withoutQuotes] using noQuote
  · right
    rwa [withoutQuotes_of_isPattern isPattern]

theorem expressible_of_firstMatch?
    {cursor : Cursor}
    {kind : TokenKind}
    {scan : Scan}
    {leaf : Expr}
    (matched : standard.firstMatch? cursor.rest = some (.token kind, scan))
    (isLeaf : (cursor.token kind scan).leaf? = some leaf) :
    leaf.Expressible := by
  have isPiece := (firstMatch?_standard_iff.mp matched).1
  cases kind with
  | identifier =>
      simp only [Token.leaf?, Cursor.token, Lexeme.tokenText, Option.some.injEq]
        at isLeaf
      subst isLeaf
      refine .identifier ?_ ?_
      · simpa using isWord_iff_isRun.mpr isPiece.1
      · simpa using isPiece.2
  | literal =>
      simp only [Token.leaf?, Cursor.token, Lexeme.tokenText, Option.some.injEq]
        at isLeaf
      subst isLeaf
      refine .literal ?_
      simpa using writable_of_isPiece isPiece
  | operator operator => simp [Token.leaf?, Cursor.token] at isLeaf
  | openParen => simp [Token.leaf?, Cursor.token] at isLeaf
  | closeParen => simp [Token.leaf?, Cursor.token] at isLeaf

theorem Cursor.Takes.expressible
    {cursor last : Cursor}
    {tokens : List Token}
    (takes : Cursor.Takes standard cursor tokens last) :
    ∀ token ∈ tokens, ∀ leaf, token.leaf? = some leaf → leaf.Expressible := by
  induction takes with
  | nil => simp
  | cons taken later hypothesis =>
      intro token member leaf isLeaf
      rcases List.mem_cons.mp member with rfl | inLater
      · obtain ⟨place, kind, scan, matched, rfl⟩ :=
          exists_firstMatch?_of_nextToken taken
        exact expressible_of_firstMatch? matched isLeaf
      · exact hypothesis token inLater leaf isLeaf

/-- The grammar derives nothing but expressible expressions from tokens whose
names and values can be written. -/
theorem Derives.expressible
    {level : Level}
    {tokens : List Token}
    {tree : Expr}
    {nesting : Nat}
    (derived : Derives level tokens tree nesting)
    (leaves : ∀ token ∈ tokens, ∀ leaf, token.leaf? = some leaf →
      leaf.Expressible) :
    tree.Expressible := by
  induction derived with
  | operand isLeaf => exact leaves _ (by simp) _ isLeaf
  | comparison leftLeaf isOperator rightLeaf =>
      exact .comparison (leaves _ (by simp) _ leftLeaf)
        (leaves _ (by simp) _ rightLeaf) (isLeaf_of_leaf? leftLeaf)
        (isLeaf_of_leaf? rightLeaf)
  | group isOpening derived isClosing hypothesis =>
      apply hypothesis
      intro token member
      exact leaves token (by simp [member])
  | notOfComparison derived hypothesis => exact hypothesis leaves
  | not isOperator derived hypothesis =>
      refine .not (hypothesis ?_)
      intro token member
      exact leaves token (List.mem_cons_of_mem _ member)
  | andOfNot derived hypothesis => exact hypothesis leaves
  | and leftDerived isOperator rightDerived leftHypothesis rightHypothesis =>
      refine .and (leftHypothesis ?_) (rightHypothesis ?_)
      · intro token member
        exact leaves token (List.mem_append_left _ member)
      · intro token member
        exact leaves token
          (List.mem_append_right _ (List.mem_cons_of_mem _ member))
  | orOfAnd derived hypothesis => exact hypothesis leaves
  | or leftDerived isOperator rightDerived leftHypothesis rightHypothesis =>
      refine .or (leftHypothesis ?_) (rightHypothesis ?_)
      · intro token member
        exact leaves token (List.mem_append_left _ member)
      · intro token member
        exact leaves token
          (List.mem_append_right _ (List.mem_cons_of_mem _ member))

/-! ## Compiling -/

theorem compile_source
    {tree : Expr}
    {maxDepth : Nat}
    (expressible : tree.Expressible)
    (bound : tree.depth ≤ maxDepth) :
    compile maxDepth (String.ofList tree.source) = .ok tree := by
  obtain ⟨tokens, nesting, later, takes, derived, nesting_le⟩ :=
    readsAs_source expressible 0 [] (by simp [Delimited])
  rw [List.append_nil] at takes
  apply compile_eq_ok_iff.mpr
  refine ⟨tokens, ?_, ?_⟩
  · unfold tokenize tokenizeWith Cursor.start
    rw [String.toList_ofList]
    exact Cursor.tokens_eq_ok_iff.mpr
      ⟨_, _, takes, Cursor.nextToken_at_end standard rfl⟩
  · apply (parse_eq_ok_iff maxDepth tokens tree).mpr
    exact ⟨⟨nesting, Nat.le_trans nesting_le bound, derived⟩, bound⟩

theorem expressible_of_compile
    {maxDepth : Nat}
    {source : String}
    {tree : Expr}
    (compiled : compile maxDepth source = .ok tree) :
    tree.Expressible ∧ tree.depth ≤ maxDepth := by
  obtain ⟨tokens, tokenized, parsed⟩ := compile_eq_ok_iff.mp compiled
  obtain ⟨last, ending, takes, -⟩ := Cursor.tokens_eq_ok_iff.mp tokenized
  obtain ⟨⟨nesting, -, derived⟩, bound⟩ :=
    (parse_eq_ok_iff maxDepth tokens tree).mp parsed
  exact ⟨derived.expressible takes.expressible, bound⟩

/-- Exactly the expressible expressions within the limit on depth are compiled,
from their own source texts and from any other. -/
theorem compile_image (maxDepth : Nat) :
    (∀ tree : Expr, tree.Expressible →
      (compile maxDepth (String.ofList tree.source) = .ok tree ↔
        tree.depth ≤ maxDepth)) ∧
    ∀ (source : String) (tree : Expr),
      compile maxDepth source = .ok tree →
        tree.Expressible ∧ tree.depth ≤ maxDepth := by
  refine ⟨?_, ?_⟩
  · intro tree expressible
    refine ⟨?_, compile_source expressible⟩
    intro compiled
    exact (expressible_of_compile compiled).2
  · intro source tree compiled
    exact expressible_of_compile compiled

end FilterLang
