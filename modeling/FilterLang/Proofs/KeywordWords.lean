import FilterLang.Proofs.Pieces

/-!
# Words that start with keywords

Keywords are tried before names, so a word that starts with a keyword is divided
behind it, and again as long as a keyword follows. What is left may be a name, a
value, nothing at all, or something with which no piece starts. The main
statement, `word_divides_behind_keywords`, says so of every word.
-/

namespace FilterLang

/-- Keywords at the front of a text, in any letter case, one behind another up to
a cursor behind which no keyword stands, make keyword tokens. -/
inductive StripsKeywords : Cursor → List Token → Cursor → Prop
  | done
      {cursor : Cursor}
      (noKeyword : ¬StartsWithKeyword cursor.rest) :
      StripsKeywords cursor [] cursor
  | keyword
      {offset : Nat}
      {spelled text : List Char}
      {kind : TokenKind}
      {tokens : List Token}
      {last : Cursor}
      (isKeyword : kind ∈ keywordKinds)
      (spells : spelled.map Char.toUpper = kind.name.toList)
      (later : StripsKeywords ⟨offset + byteLength spelled, text⟩ tokens last) :
      StripsKeywords ⟨offset, spelled ++ text⟩
        (⟨kind, String.ofList spelled,
          ⟨offset, offset + byteLength spelled⟩⟩ :: tokens) last

/-- The token of the text from a cursor on, all of it. -/
def Cursor.wholeToken
    (cursor : Cursor)
    (kind : TokenKind) : Token :=
  ⟨kind, String.ofList cursor.rest,
    ⟨cursor.offset, cursor.offset + byteLength cursor.rest⟩⟩

/-- What becomes of a word whose keywords have been stripped off up to a cursor:
the rest is nothing, a name, a value, or starts with a mark and with no piece. -/
inductive WordOutcome
    (keywords : List Token)
    (last : Cursor) : Except LexError (List Token) → Prop
  | nothing
      (empty : last.rest = []) :
      WordOutcome keywords last (.ok keywords)
  | name
      {first : Char}
      (begins : last.rest.head? = some first)
      (isLetter : first.isAlpha) :
      WordOutcome keywords last (.ok (keywords ++ [last.wholeToken .identifier]))
  | value
      {first : Char}
      (begins : last.rest.head? = some first)
      (isDigit : first.isDigit) :
      WordOutcome keywords last (.ok (keywords ++ [last.wholeToken .literal]))
  | fault
      {first : Char}
      (begins : last.rest.head? = some first)
      (isMark : first ∈ ['_', '.', '-']) :
      WordOutcome keywords last
        (.error ⟨String.ofList last.rest, last.offset + 1⟩)

theorem RuleTable.firstMatch?_keyword
    {kind : TokenKind}
    {spelled : List Char}
    (isKeyword : kind ∈ keywordKinds)
    (spells : spelled.map Char.toUpper = kind.name.toList)
    (text : List Char) :
    standard.firstMatch? (spelled ++ text) =
      some (.token kind, ⟨spelled, text⟩) := by
  simp only [keywordKinds, List.mem_cons, List.not_mem_nil, or_false]
    at isKeyword
  rcases isKeyword with rfl | rfl | rfl
  · exact firstMatch?_piece spells (stopsRun_false text)
  · exact firstMatch?_piece spells (stopsRun_false text)
  · exact firstMatch?_piece spells (stopsRun_false text)

namespace StripsKeywords

/-- Keywords can be stripped off every text, by induction on its length. -/
theorem exists_of_text
    (offset : Nat)
    (text : List Char) :
    ∃ keywords last, StripsKeywords ⟨offset, text⟩ keywords last := by
  induction remaining : text.length using Nat.strongRecOn
      generalizing offset text with
  | ind remaining hypothesis =>
      by_cases starts : StartsWithKeyword text
      · obtain ⟨keyword, member, spelled, later, spells, rfl⟩ :=
          startsWithKeyword_iff.mp starts
        obtain ⟨kind, isKeyword, rfl⟩ := mem_keywords_iff.mp member
        have matched := RuleTable.firstMatch?_keyword isKeyword spells later
        have shorter :=
          (RuleTable.divides_of_firstMatch? matched).length_rest_lt
        obtain ⟨keywords, last, strips⟩ := hypothesis later.length
          (remaining ▸ shorter) (offset + byteLength spelled) later rfl
        exact ⟨_, last, .keyword isKeyword spells strips⟩
      · exact ⟨[], _, .done starts⟩

/-- Keywords can be stripped off a text in one way only, for the rules divide off
the same keyword each time. -/
theorem unique
    {cursor last otherLast : Cursor}
    {keywords others : List Token}
    (strips : StripsKeywords cursor keywords last)
    (otherStrips : StripsKeywords cursor others otherLast) :
    others = keywords ∧ otherLast = last := by
  induction strips generalizing others with
  | done noKeyword =>
      cases otherStrips with
      | done => exact ⟨rfl, rfl⟩
      | keyword isKeyword spells =>
          refine absurd (startsWithKeyword_iff.mpr ?_) noKeyword
          exact ⟨_, mem_keywords_iff.mpr ⟨_, isKeyword, rfl⟩, _, _, spells, rfl⟩
  | @keyword offset spelled text kind tokens last isKeyword spells later
      hypothesis =>
      have matched := RuleTable.firstMatch?_keyword isKeyword spells text
      generalize cursor_eq : Cursor.mk offset (spelled ++ text) = cursor
        at otherStrips
      cases otherStrips with
      | done noKeyword =>
          refine absurd (startsWithKeyword_iff.mpr ?_) noKeyword
          rw [← cursor_eq]
          exact ⟨_, mem_keywords_iff.mpr ⟨_, isKeyword, rfl⟩, _, _, spells, rfl⟩
      | @keyword _ _ otherText _ _ _ otherIsKeyword otherSpells otherLater =>
          obtain ⟨rfl, text_eq⟩ := Cursor.mk.inj cursor_eq
          have otherMatched :=
            RuleTable.firstMatch?_keyword otherIsKeyword otherSpells otherText
          rw [← text_eq, matched] at otherMatched
          cases otherMatched
          obtain ⟨rfl, rfl⟩ := hypothesis otherLater
          exact ⟨rfl, rfl⟩

theorem rest_suffix
    {cursor last : Cursor}
    {keywords : List Token}
    (strips : StripsKeywords cursor keywords last) :
    last.rest <:+ cursor.rest := by
  induction strips with
  | done noKeyword => exact List.suffix_refl _
  | keyword isKeyword spells later hypothesis =>
      exact hypothesis.trans (List.suffix_append _ _)

theorem noKeyword_behind
    {cursor last : Cursor}
    {keywords : List Token}
    (strips : StripsKeywords cursor keywords last) :
    ¬StartsWithKeyword last.rest := by
  induction strips with
  | done noKeyword => exact noKeyword
  | keyword isKeyword spells later hypothesis => exact hypothesis

/-- The keywords are the first tokens of the text. -/
theorem tokens_eq
    {cursor last : Cursor}
    {keywords : List Token}
    (strips : StripsKeywords cursor keywords last) :
    cursor.tokens .standard = (last.tokens .standard).map (keywords ++ ·) := by
  induction strips with
  | done noKeyword => exact (map_nil_append _).symm
  | @keyword offset spelled text kind tokens last isKeyword spells later
      hypothesis =>
      have notLiteral : kind ≠ .literal := by
        rintro rfl
        exact absurd isKeyword (by decide)
      rw [Cursor.tokens_of_firstMatch?
          (RuleTable.firstMatch?_keyword isKeyword spells text),
        hypothesis, map_append_map_append]
      simp only [Lexeme.token?, Lexeme.tokenText, if_neg notLiteral,
        Option.toList_some, List.singleton_append]

end StripsKeywords

/-! ## Behind the keywords -/

/-- A text that is a single piece makes a single token. -/
theorem Cursor.tokens_of_isPiece
    {cursor : Cursor}
    {kind : TokenKind}
    (isPiece : (LexicalClass.token kind).IsPiece cursor.rest)
    (sameText : Lexeme.tokenText kind cursor.rest = cursor.rest) :
    cursor.tokens .standard = .ok [cursor.wholeToken kind] := by
  have matched : RuleTable.standard.firstMatch? cursor.rest =
      some (.token kind, ⟨cursor.rest, []⟩) := by
    have matchedBefore := RuleTable.firstMatch?_piece isPiece (stopsRun_nil _)
    rwa [List.append_nil] at matchedBefore
  rw [tokens_of_token matched, past, tokens_at_end, Cursor.token, sameText]
  rfl

theorem RuleTable.stuck_at_mark
    {mark : Char}
    (isMark : mark ∈ ['_', '.', '-'])
    (text : List Char) :
    standard.firstMatch? (mark :: text) = none := by
  have noStart :
      ∀ lexicalClass ∈ standard, lexicalClass.starts mark = false := by
    simp only [List.mem_cons, List.not_mem_nil, or_false] at isMark
    rcases isMark with rfl | rfl | rfl <;> decide
  apply List.findSome?_eq_none_iff.mpr
  intro lexicalClass member
  rw [LexicalClass.scan?_eq_none_of_starts text (noStart lexicalClass member)]
  rfl

/-- What is left of a word behind its keywords, by its first character. -/
theorem wordOutcome_of_rest
    {last : Cursor}
    (inWord : ∀ character ∈ last.rest, LexicalClass.isWordCharacter character)
    (noKeyword : ¬StartsWithKeyword last.rest)
    (keywords : List Token) :
    WordOutcome keywords last
      ((last.tokens .standard).map (keywords ++ ·)) := by
  obtain ⟨offset, text⟩ := last
  cases text with
  | nil =>
      have same : (Except.ok [] : Except LexError _).map (keywords ++ ·) =
          .ok keywords :=
        congrArg Except.ok (List.append_nil keywords)
      rw [Cursor.tokens_at_end, same]
      exact .nothing rfl
  | cons first run =>
      rw [List.forall_mem_cons] at inWord
      obtain ⟨firstInWord, runInWord⟩ := inWord
      simp only [LexicalClass.isWordCharacter, Char.isAlphanum, Bool.or_eq_true,
        decide_eq_true_eq] at firstInWord
      have mark (isMark : first ∈ ['_', '.', '-']) :
          WordOutcome keywords ⟨offset, first :: run⟩
            ((Cursor.tokens .standard ⟨offset, first :: run⟩).map
              (keywords ++ ·)) := by
        rw [Cursor.tokens_of_stuck (RuleTable.stuck_at_mark isMark run)]
        exact .fault rfl isMark
      rcases firstInWord with
        (((isLetter | isDigit) | rfl) | rfl) | rfl
      · have isPiece : (LexicalClass.token .identifier).IsPiece (first :: run) :=
          ⟨⟨first, run, rfl, isLetter, runInWord⟩, noKeyword⟩
        rw [Cursor.tokens_of_isPiece isPiece rfl]
        exact .name rfl isLetter
      · have isPiece : (LexicalClass.token .literal).IsPiece (first :: run) :=
          Or.inl ⟨first, run, rfl, isDigit, runInWord⟩
        have notQuote : (first :: run).head? ≠ some '"' := by
          rw [List.head?_cons, Ne, Option.some.injEq]
          rintro rfl
          exact absurd isDigit (by decide)
        have sameText : Lexeme.tokenText .literal (first :: run) = first :: run :=
          Lexeme.withoutQuotes_of_head_ne_quote notQuote
        rw [Cursor.tokens_of_isPiece isPiece sameText]
        exact .value rfl isDigit
      · exact mark (by decide)
      · exact mark (by decide)
      · exact mark (by decide)

/-- A word is a single name exactly if it does not start with a keyword. -/
theorem tokenize_eq_identifier_iff
    {word : String}
    (isWord : IsWord word.toList) :
    tokenize word =
        .ok [⟨.identifier, word, ⟨0, byteLength word.toList⟩⟩] ↔
      ¬StartsWithKeyword word.toList := by
  constructor
  · intro single starts
    obtain ⟨keyword, member, spelled, later, spells, append⟩ :=
      startsWithKeyword_iff.mp starts
    obtain ⟨kind, isKeyword, rfl⟩ := mem_keywords_iff.mp member
    have matched := RuleTable.firstMatch?_keyword isKeyword spells later
    rw [tokenize, tokenizeWith, Cursor.start, ← append] at single
    have firstToken := Cursor.tokens_of_firstMatch? matched 0
    rw [single] at firstToken
    obtain ⟨tokens, -, cons_eq⟩ := map_eq_ok_iff.mp firstToken.symm
    obtain rfl : kind = .identifier :=
      congrArg Token.kind (List.cons.inj cons_eq).1
    exact absurd isKeyword (by decide)
  · intro noKeyword
    have isPiece : (LexicalClass.token .identifier).IsPiece word.toList :=
      ⟨isWord_iff_isRun.mp isWord, noKeyword⟩
    rw [tokenize, tokenizeWith]
    rw [Cursor.tokens_of_isPiece isPiece rfl, Cursor.wholeToken, Cursor.start,
      String.ofList_toList, Nat.zero_add]

/-- From the front of a word keywords can be stripped off, as long as there is
one, in one way. The tokens of the word are those of the keywords and, unless
nothing is left behind them, one more: a name if the rest begins with a letter, a
value if it begins with a digit. If the rest begins with a mark, the word has no
tokens but an error there. A word is a single name exactly if it does not start
with a keyword. -/
theorem word_divides_behind_keywords
    {word : String}
    (isWord : IsWord word.toList) :
    (∃ keywords last,
      StripsKeywords (.start word) keywords last ∧
      (∀ others otherLast,
        StripsKeywords (.start word) others otherLast →
          others = keywords ∧ otherLast = last) ∧
      WordOutcome keywords last (tokenize word)) ∧
    (tokenize word =
        .ok [⟨.identifier, word, ⟨0, byteLength word.toList⟩⟩] ↔
      ¬StartsWithKeyword word.toList) := by
  refine ⟨?_, tokenize_eq_identifier_iff isWord⟩
  obtain ⟨keywords, last, strips⟩ :=
    StripsKeywords.exists_of_text 0 word.toList
  refine ⟨keywords, last, strips, fun _ _ => strips.unique, ?_⟩
  have inWord : ∀ character ∈ last.rest,
      LexicalClass.isWordCharacter character := by
    intro character member
    exact LexicalClass.isWordCharacter_of_isRun (isWord_iff_isRun.mp isWord)
      (fun _ => LexicalClass.isWordCharacter_of_isAlpha)
      (strips.rest_suffix.mem member)
  have outcome := wordOutcome_of_rest inWord strips.noKeyword_behind keywords
  rwa [← strips.tokens_eq] at outcome

theorem word_divides_behind_keywords_at_mark :
    IsWord "nOtOR-x".toList ∧ tokenize "nOtOR-x" = .error ⟨"-x", 6⟩ := by
  have isWord : IsWord "nOtOR-x".toList :=
    .word (by decide) (List.all_eq_true.mp (by decide))
  have noKeyword : ¬StartsWithKeyword ['-', 'x'] := by
    unfold StartsWithKeyword
    decide
  have strips : StripsKeywords (.start "nOtOR-x")
      [⟨.not, "nOt", ⟨0, 3⟩⟩, ⟨.or, "OR", ⟨3, 5⟩⟩] ⟨5, ['-', 'x']⟩ :=
    @StripsKeywords.keyword 0 ['n', 'O', 't'] ['O', 'R', '-', 'x'] .not _ _
      (by decide) (by decide)
      (@StripsKeywords.keyword 3 ['O', 'R'] ['-', 'x'] .or _ _
        (by decide) (by decide) (.done noKeyword))
  obtain ⟨⟨keywords, last, -, unique, outcome⟩, -⟩ :=
    word_divides_behind_keywords isWord
  obtain ⟨rfl, rfl⟩ := unique _ _ strips
  refine ⟨isWord, ?_⟩
  generalize tokenize "nOtOR-x" = answer at outcome
  cases outcome with
  | nothing empty => exact absurd empty (by decide)
  | name begins isLetter =>
      cases begins
      exact absurd isLetter (by decide)
  | value begins isDigit =>
      cases begins
      exact absurd isDigit (by decide)
  | fault => rfl

end FilterLang
