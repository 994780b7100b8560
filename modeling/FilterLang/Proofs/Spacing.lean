import FilterLang.Lexeme.Sequence
import FilterLang.Proofs.Correspondence
import FilterLang.Proofs.Pieces

/-!
# Spacing does not matter

A text may be spaced otherwise: blanks may be inserted between its lexemes, also
where it cannot be divided further, and its runs of blanks may be replaced by
others. A token ends in front of a blank, so every piece stays what it was, and
the text keeps the kinds and texts of its tokens.
-/

namespace FilterLang

open LexicalClass (isBlank)

/-- The lexemes of a text, spaced otherwise: blanks may stand in front of each
of them and behind the last one, and a run of blanks may be replaced by
another. -/
inductive SpacedOut : List Lexeme → List Char → Prop
  | nil : SpacedOut [] []
  | insert
      {lexemes : List Lexeme}
      {text : List Char}
      {blank : Char}
      (blankInserted : isBlank blank)
      (spaced : SpacedOut lexemes text) :
      SpacedOut lexemes (blank :: text)
  | replace
      {lexeme : Lexeme}
      {lexemes : List Lexeme}
      {run text : List Char}
      (blankLexeme : lexeme.isBlank)
      (blankRun : IsRun isBlank isBlank run)
      (spaced : SpacedOut lexemes text) :
      SpacedOut (lexeme :: lexemes) (run ++ text)
  | keep
      {lexeme : Lexeme}
      {lexemes : List Lexeme}
      {text : List Char}
      (spaced : SpacedOut lexemes text) :
      SpacedOut (lexeme :: lexemes) (lexeme.text ++ text)

/-- A source text, spaced otherwise up to the place where it ends or cannot be
divided further, with some blanks added at its end. -/
structure Respaced
    (source other : String)
    (added : List Char) : Prop where
  /-- The lexemes are spaced otherwise, and the rest of the text is kept. -/
  spaced : ∃ front, SpacedOut (lexemesOf .standard source).lexemes front ∧
    other.toList = front ++ ((lexemesOf .standard source).remainder ++ added)
  /-- Nothing but blanks is added. -/
  blanks : ∀ character ∈ added, isBlank character

/-- Two tokens have the same text. -/
abbrev SameText (token other : Token) : Prop :=
  token.text = other.text

/-- The rest of a text that cannot be divided is kept, with blanks added at its
end. -/
def KeepsRemainder
    (added : List Char)
    (error other : LexError) : Prop :=
  other.remainder = error.remainder ++ String.ofList added

variable {lexemes : List Lexeme} {front text remainder added : List Char}

theorem areBlanks_of_isRun
    {run : List Char}
    (blankRun : IsRun isBlank isBlank run) :
    ∀ character ∈ run, isBlank character := by
  obtain ⟨first, later, rfl, firstBlank, laterBlank⟩ := blankRun
  exact List.forall_mem_cons.mpr ⟨firstBlank, laterBlank⟩

/-- A text that is spaced otherwise starts as the text did, or with a blank. -/
theorem SpacedOut.head
    {offset : Nat}
    (spaced : SpacedOut lexemes front)
    (sequence : lexemesFrom .standard offset text = ⟨lexemes, remainder⟩)
    (blanks : ∀ character ∈ added, isBlank character) :
    ∀ character ∈ (front ++ (remainder ++ added)).head?,
      isBlank character ∨ character ∈ text.head? := by
  intro character first
  cases spaced with
  | nil =>
      obtain ⟨-, rfl⟩ := stuck_of_lexemesFrom_nil sequence
      cases remainder with
      | nil => exact Or.inl (blanks character (List.mem_of_head? first))
      | cons head remainder => exact Or.inr first
  | insert blankInserted spaced =>
      obtain rfl := Option.some.inj first
      exact Or.inl blankInserted
  | replace blankLexeme blankRun spaced =>
      obtain ⟨head, run, rfl, blankHead, -⟩ := blankRun
      obtain rfl := Option.some.inj first
      exact Or.inl blankHead
  | @keep lexeme =>
      obtain ⟨rest, matched, -⟩ := matched_of_lexemesFrom_cons sequence
      have divides := RuleTable.divides_of_firstMatch? matched
      obtain ⟨head, tail, text_eq⟩ :=
        List.exists_cons_of_ne_nil divides.nonempty
      simp only at text_eq
      rw [← divides.append]
      simp only [text_eq, List.cons_append, List.head?_cons] at first ⊢
      exact Or.inr first

/-- A token ends in front of what is spaced otherwise, as it did before. -/
theorem SpacedOut.stopsRun
    {offset : Nat}
    (spaced : SpacedOut lexemes front)
    (sequence : lexemesFrom .standard offset text = ⟨lexemes, remainder⟩)
    (blanks : ∀ character ∈ added, isBlank character)
    {kind : TokenKind}
    {found : List Char}
    (stops : StopsRun ((LexicalClass.token kind).goesOn found) text) :
    StopsRun ((LexicalClass.token kind).goesOn found)
      (front ++ (remainder ++ added)) := by
  intro character first
  rcases spaced.head sequence blanks character first with blank | sameHead
  · exact LexicalClass.goesOn_token_of_isBlank kind found blank
  · exact stops character sameHead

/-- Where a text ends or cannot be divided, blanks behind it make no token. -/
theorem tokens_append_blanks_of_stuck
    (stuck : RuleTable.standard.firstMatch? text = none)
    (blanks : ∀ character ∈ added, isBlank character)
    (offset other : Nat) :
    OutcomesCorrespond (KeepsRemainder added)
      (List.Forall₂ (Token.Corresponds SameText))
      (Cursor.tokens .standard ⟨offset, text⟩)
      (Cursor.tokens .standard ⟨other, text ++ added⟩) := by
  cases text with
  | nil =>
      rw [List.nil_append, ← List.append_nil added,
        Cursor.tokens_blanks_append blanks, Cursor.tokens_at_end,
        Cursor.tokens_at_end]
      exact .ok .nil
  | cons head text =>
      have otherStuck := RuleTable.firstMatch?_append_blanks stuck
        (List.cons_ne_nil head text) blanks
      rw [@Cursor.tokens_of_stuck .standard ⟨offset, _⟩ stuck,
        @Cursor.tokens_of_stuck .standard ⟨other, _⟩ otherStuck]
      exact .error String.ofList_append

/-- Lexemes that are spaced otherwise keep the kinds and texts of their tokens,
by induction on how they are spaced. -/
theorem SpacedOut.tokens_correspond
    (spaced : SpacedOut lexemes front)
    {offset : Nat}
    (sequence : lexemesFrom .standard offset text = ⟨lexemes, remainder⟩)
    (blanks : ∀ character ∈ added, isBlank character)
    (other : Nat) :
    OutcomesCorrespond (KeepsRemainder added)
      (List.Forall₂ (Token.Corresponds SameText))
      (Cursor.tokens .standard ⟨offset, text⟩)
      (Cursor.tokens .standard ⟨other, front ++ (remainder ++ added)⟩) := by
  induction spaced generalizing offset text other with
  | nil =>
      obtain ⟨stuck, rfl⟩ := stuck_of_lexemesFrom_nil sequence
      exact tokens_append_blanks_of_stuck stuck blanks offset other
  | insert blankInserted spaced hypothesis =>
      rw [List.cons_append, Cursor.tokens_blank_cons other _ blankInserted]
      exact hypothesis sequence _
  | @replace lexeme lexemes run front blankLexeme blankRun spaced hypothesis =>
      obtain ⟨rest, matched, later⟩ := matched_of_lexemesFrom_cons sequence
      rw [of_decide_eq_true blankLexeme] at matched
      rw [@Cursor.tokens_of_blank .standard ⟨offset, text⟩ _ matched,
        List.append_assoc,
        Cursor.tokens_blanks_append (areBlanks_of_isRun blankRun)]
      exact hypothesis later _
  | @keep lexeme lexemes front spaced hypothesis =>
      obtain ⟨rest, matched, later⟩ := matched_of_lexemesFrom_cons sequence
      obtain ⟨isPiece, stops, -⟩ := RuleTable.firstMatch?_standard_iff.mp matched
      obtain ⟨lexicalClass, pieceText, span⟩ := lexeme
      cases lexicalClass with
      | blank =>
          rw [@Cursor.tokens_of_blank .standard ⟨offset, text⟩ _ matched,
            List.append_assoc,
            Cursor.tokens_blanks_append (areBlanks_of_isRun isPiece)]
          exact hypothesis later _
      | token kind =>
          have otherMatched := RuleTable.firstMatch?_piece isPiece
            (spaced.stopsRun later blanks stops)
          rw [Cursor.tokens_of_firstMatch? matched, List.append_assoc,
            Cursor.tokens_of_firstMatch? otherMatched]
          refine (hypothesis later _).map ?_
          intro tokens others correspond
          exact .cons ⟨rfl, rfl⟩ correspond

/-! ## Source texts -/

theorem Token.Corresponds.leaf?_eq
    {token other : Token}
    (tokens : token.Corresponds SameText other) :
    token.leaf? = other.leaf? := by
  rw [Token.leaf?, Token.leaf?, tokens.kind_eq, tokens.related]

theorem filterMap_leaf?_eq
    {tokens others : List Token}
    (correspond : List.Forall₂ (Token.Corresponds SameText) tokens others) :
    tokens.filterMap Token.leaf? = others.filterMap Token.leaf? := by
  induction correspond with
  | nil => rfl
  | cons head tail hypothesis =>
      rw [List.filterMap_cons, List.filterMap_cons, head.leaf?_eq, hypothesis]

theorem map_kind_text_eq
    {tokens others : List Token}
    (correspond : List.Forall₂ (Token.Corresponds SameText) tokens others) :
    tokens.map (fun token => (token.kind, token.text)) =
      others.map (fun token => (token.kind, token.text)) := by
  induction correspond with
  | nil => rfl
  | cons head tail hypothesis =>
      rw [List.map_cons, List.map_cons, head.kind_eq, head.related, hypothesis]

variable {source other : String}

theorem Respaced.tokenize_corresponds
    (respaced : Respaced source other added) :
    OutcomesCorrespond (KeepsRemainder added)
      (List.Forall₂ (Token.Corresponds SameText))
      (tokenize source) (tokenize other) := by
  obtain ⟨front, spaced, other_eq⟩ := respaced.spaced
  simp only [tokenize, tokenizeWith, Cursor.start, other_eq]
  exact spaced.tokens_correspond rfl respaced.blanks 0

/-- A text that is spaced otherwise divides into tokens of the same kinds and
texts and compiles to the same expression, or fails at the same stage; where
the text cannot be divided, the rest of the text is the same but for blanks that
were added at its end. -/
theorem spacing_does_not_matter
    (respaced : Respaced source other added) :
    OutcomesCorrespond (KeepsRemainder added)
      (fun tokens others =>
        tokens.map (fun token => (token.kind, token.text)) =
          others.map (fun token => (token.kind, token.text)))
      (tokenize source) (tokenize other) ∧
    ∀ maxDepth,
      OutcomesCorrespond
        (CompileError.Corresponds (KeepsRemainder added) SameText) Eq
        (compile maxDepth source) (compile maxDepth other) := by
  have tokenized := respaced.tokenize_corresponds
  refine ⟨tokenized.imp_of_ok ?_, ?_⟩
  · intro tokens others _ _ correspond
    exact map_kind_text_eq correspond
  · intro maxDepth
    refine (compile_corresponds tokenized maxDepth).imp_of_ok ?_
    rintro tree otherTree - -
      ⟨sameShape, tokens, others, tokens_eq, others_eq, leaves_eq,
        otherLeaves_eq⟩
    rw [tokens_eq, others_eq] at tokenized
    cases tokenized with
    | ok correspond =>
        apply sameShape.eq_of_leaves_eq
        rw [leaves_eq, otherLeaves_eq, filterMap_leaf?_eq correspond]

theorem spacing_does_not_matter_around_operands :
    Respaced "a 1" "\ta\n\n1 " [' '] ∧
      OutcomesCorrespond (KeepsRemainder [' '])
        (fun tokens others =>
          tokens.map (fun token => (token.kind, token.text)) =
            others.map (fun token => (token.kind, token.text)))
        (tokenize "a 1") (tokenize "\ta\n\n1 ") ∧
      ∀ maxDepth,
        OutcomesCorrespond
          (CompileError.Corresponds (KeepsRemainder [' ']) SameText) Eq
          (compile maxDepth "a 1") (compile maxDepth "\ta\n\n1 ") := by
  have name : RuleTable.standard.firstMatch? ['a', ' ', '1'] =
      some (.token .identifier, ⟨['a'], [' ', '1']⟩) := by decide
  have blank : RuleTable.standard.firstMatch? [' ', '1'] =
      some (.blank, ⟨[' '], ['1']⟩) := by decide
  have number : RuleTable.standard.firstMatch? ['1'] =
      some (.token .literal, ⟨['1'], []⟩) := by decide
  have sequence : lexemesOf .standard "a 1" =
      ⟨[⟨.token .identifier, ['a'], ⟨0, 1⟩⟩, ⟨.blank, [' '], ⟨1, 2⟩⟩,
        ⟨.token .literal, ['1'], ⟨2, 3⟩⟩], []⟩ := by
    change lexemesFrom .standard 0 ['a', ' ', '1'] = _
    rw [lexemesFrom_of_firstMatch? name, lexemesFrom_of_firstMatch? blank,
      lexemesFrom_of_firstMatch? number, lexemesFrom_of_stuck rfl]
    rfl
  have respaced : Respaced "a 1" "\ta\n\n1 " [' '] := by
    refine ⟨⟨['\t', 'a', '\n', '\n', '1'], ?_, ?_⟩,
      List.forall_mem_singleton.mpr rfl⟩
    · rw [sequence]
      exact .insert rfl (.keep (.replace rfl
        ⟨'\n', ['\n'], rfl, rfl, List.forall_mem_singleton.mpr rfl⟩
        (.keep .nil)))
    · rw [sequence]
      decide
  exact ⟨respaced, spacing_does_not_matter respaced⟩

end FilterLang
