import FilterLang.Lexeme.Sequence
import FilterLang.Proofs.Pieces

/-!
# Cursors walk along the lexemes of a text

The lexemes of a text tile it, and a cursor at the start of the text walks along
them: whatever calls are mixed, it stands behind some number of lexemes, and each
call answers by the next of them. The main statement, `replay_along_lexemes`,
says so of every sequence of calls, and that all tokens of the text are those of
its lexemes.
-/

namespace FilterLang

/-- A lexeme yields a token of its class and its span, which carries the text of
the lexeme, or the text between the quotes of a quoted literal. -/
structure Lexeme.Yields
    (lexeme : Lexeme)
    (token : Token) : Prop where
  lexicalClass_eq : lexeme.lexicalClass = .token token.kind
  span_eq : token.span = lexeme.span
  text_eq :
    if token.kind = .literal ∧ lexeme.text.head? = some '"' then
      lexeme.text = '"' :: token.text.toList ++ ['"']
    else
      lexeme.text = token.text.toList

namespace Cursor

variable {rules : RuleTable} {source : List Char} {sequence : LexemeSequence}
  {taken : Nat} {cursor : Cursor}

/-- A cursor stands behind some of the lexemes of a text. -/
structure StandsBehind
    (cursor : Cursor)
    (rules : RuleTable)
    (source : List Char)
    (sequence : LexemeSequence)
    (taken : Nat) : Prop where
  inText : ∃ front, source = front ++ cursor.rest ∧
    byteLength front = cursor.offset
  offset_eq : cursor.offset = sequence.offsetBehind taken
  taken_le : taken ≤ sequence.lexemes.length
  ahead : lexemesFrom rules cursor.offset cursor.rest =
    ⟨sequence.lexemes.drop taken, sequence.remainder⟩

theorem standsBehind_start
    (rules : RuleTable)
    (source : String) :
    (start source).StandsBehind rules source.toList (lexemesOf rules source)
      0 where
  inText := ⟨[], rfl, rfl⟩
  offset_eq := rfl
  taken_le := Nat.zero_le _
  ahead := rfl

/-- Behind some lexemes, either the sequence has ended and no rule matches, or
the rules divide off the next lexeme of the sequence. -/
theorem StandsBehind.stuck_or_matched
    (stands : cursor.StandsBehind rules source sequence taken) :
    (rules.firstMatch? cursor.rest = none ∧ taken = sequence.lexemes.length ∧
        cursor = sequence.last) ∨
      ∃ lexicalClass scan,
        rules.firstMatch? cursor.rest = some (lexicalClass, scan) ∧
        sequence.lexemes[taken]? = some (cursor.lexeme lexicalClass scan) ∧
        (cursor.past scan).StandsBehind rules source sequence (taken + 1) := by
  obtain ⟨⟨front, source_eq, front_eq⟩, offset_eq, taken_le, ahead⟩ := stands
  cases matched : rules.firstMatch? cursor.rest with
  | none =>
      rw [lexemesFrom_of_stuck matched, LexemeSequence.mk.injEq] at ahead
      have taken_eq : taken = sequence.lexemes.length := by
        have none_left := List.drop_eq_nil_iff.mp ahead.1.symm
        omega
      refine Or.inl ⟨rfl, taken_eq, ?_⟩
      rw [LexemeSequence.last, ← taken_eq, ← offset_eq, ← ahead.2]
  | some found =>
      obtain ⟨lexicalClass, scan⟩ := found
      rw [lexemesFrom_of_firstMatch? matched, LexemeSequence.mk.injEq] at ahead
      have divides := RuleTable.divides_of_firstMatch? matched
      obtain ⟨cons_eq, remainder_eq⟩ := ahead
      have next : sequence.lexemes[taken]? =
          some (cursor.lexeme lexicalClass scan) := by
        rw [← List.head?_drop, ← cons_eq]
        rfl
      have taken_lt : taken < sequence.lexemes.length :=
        (List.getElem?_eq_some_iff.mp next).1
      refine Or.inr ⟨lexicalClass, scan, rfl, next, ?_, ?_, taken_lt, ?_⟩
      · refine ⟨front ++ scan.found, ?_, ?_⟩
        · rw [source_eq, List.append_assoc, past, divides.append]
        · rw [byteLength_append, front_eq, past]
      · rw [LexemeSequence.offsetBehind, next]
        rfl
      · rw [← remainder_eq, ← List.tail_drop, ← cons_eq]
        rfl

/-- A call is answered by the lexemes ahead, and the cursor moves behind those
that it takes. -/
theorem StandsBehind.perform
    (stands : cursor.StandsBehind rules source sequence taken)
    (call : Call) :
    (cursor.perform rules call).1 = (sequence.perform taken call).1 ∧
      (cursor.perform rules call).2.StandsBehind rules source sequence
        (sequence.perform taken call).2 := by
  -- A call for a token goes on behind each blank that it takes.
  induction remaining : sequence.lexemes.length - taken using Nat.strongRecOn
      generalizing taken cursor with
  | ind remaining hypothesis =>
      rcases stands.stuck_or_matched with
        ⟨stuck, rfl, rfl⟩ | ⟨lexicalClass, scan, matched, next, later⟩
      · rw [perform_of_stuck stuck, LexemeSequence.perform_at_end]
        exact ⟨rfl, stands⟩
      · cases call with
        | lexeme =>
            rw [perform_lexeme_of_firstMatch? matched,
              LexemeSequence.perform_lexeme next]
            exact ⟨rfl, later⟩
        | token =>
            cases lexicalClass with
            | blank =>
                have later_le := later.taken_le
                rw [perform_token_of_blank matched,
                  LexemeSequence.perform_token_of_blank next rfl]
                exact hypothesis _ (by omega) later rfl
            | token kind =>
                rw [perform_token_of_token matched,
                  LexemeSequence.perform_token next Bool.false_ne_true]
                exact ⟨rfl, later⟩

/-- The same answers come from a cursor and from the lexemes ahead of it. -/
theorem StandsBehind.replay
    (stands : cursor.StandsBehind rules source sequence taken)
    (calls : List Call) :
    cursor.replay rules calls = sequence.replay taken calls := by
  induction calls generalizing cursor taken with
  | nil => rfl
  | cons call calls hypothesis =>
      obtain ⟨reply_eq, later⟩ := stands.perform call
      simp only [Cursor.replay, LexemeSequence.replay]
      rw [reply_eq, later.offset_eq, hypothesis later]

/-- All tokens from a cursor on are those of the lexemes ahead. -/
theorem StandsBehind.tokens
    (stands : cursor.StandsBehind rules source sequence taken) :
    cursor.tokens rules = sequence.last.ending
      ((sequence.lexemes.drop taken).filterMap Lexeme.token?) := by
  induction remaining : sequence.lexemes.length - taken using Nat.strongRecOn
      generalizing taken cursor with
  | ind remaining hypothesis =>
      rcases stands.stuck_or_matched with
        ⟨stuck, rfl, rfl⟩ | ⟨lexicalClass, scan, matched, next, later⟩
      · rw [tokens_of_stuck stuck, List.drop_length, List.filterMap_nil]
      · have later_le := later.taken_le
        have laterTokens := hypothesis _ (by omega) later rfl
        rw [LexemeSequence.drop_eq_cons next]
        cases lexicalClass with
        | blank =>
            rw [tokens_of_blank matched, laterTokens]
            rfl
        | token kind =>
            rw [tokens_of_token matched, laterTokens, map_ending]
            rfl

/-- Behind any number of lexemes stands a cursor. -/
theorem exists_standsBehind
    (rules : RuleTable)
    (source : String)
    (taken_le : taken ≤ (lexemesOf rules source).lexemes.length) :
    ∃ cursor : Cursor, cursor.StandsBehind rules source.toList
      (lexemesOf rules source) taken := by
  induction taken with
  | zero => exact ⟨_, standsBehind_start rules source⟩
  | succ taken hypothesis =>
      obtain ⟨cursor, stands⟩ := hypothesis (Nat.le_of_succ_le taken_le)
      rcases stands.stuck_or_matched with
        ⟨-, ended, -⟩ | ⟨lexicalClass, scan, -, -, later⟩
      · omega
      · exact ⟨_, later⟩

/-- Every lexeme is what the rules divide off at the cursor in front of it. -/
theorem exists_standsBehind_of_lexeme
    {rules : RuleTable}
    {source : String}
    {index : Nat}
    {lexeme : Lexeme}
    (atIndex : (lexemesOf rules source).lexemes[index]? = some lexeme) :
    ∃ (cursor : Cursor) (scan : Scan),
      cursor.StandsBehind rules source.toList (lexemesOf rules source) index ∧
      rules.firstMatch? cursor.rest = some (lexeme.lexicalClass, scan) ∧
      lexeme = cursor.lexeme lexeme.lexicalClass scan := by
  have index_lt := (List.getElem?_eq_some_iff.mp atIndex).1
  obtain ⟨cursor, stands⟩ :=
    exists_standsBehind rules source (Nat.le_of_lt index_lt)
  rcases stands.stuck_or_matched with
    ⟨-, ended, -⟩ | ⟨lexicalClass, scan, matched, next, -⟩
  · omega
  · rw [atIndex, Option.some.injEq] at next
    subst next
    exact ⟨cursor, scan, stands, matched, rfl⟩

end Cursor

/-- The lexemes of a text tile it. -/
theorem tiles_lexemesOf
    (rules : RuleTable)
    (source : String) :
    (lexemesOf rules source).Tiles rules source.toList := by
  refine ⟨?_, ?_, ?_, ?_⟩
  · intro index lexeme atIndex
    obtain ⟨cursor, scan, stands, -, lexeme_eq⟩ :=
      Cursor.exists_standsBehind_of_lexeme atIndex
    rw [lexeme_eq]
    exact stands.offset_eq
  · intro lexeme member
    obtain ⟨index, atIndex⟩ := List.mem_iff_getElem?.mp member
    obtain ⟨cursor, scan, -, divided, lexeme_eq⟩ :=
      Cursor.exists_standsBehind_of_lexeme atIndex
    have divides := RuleTable.divides_of_firstMatch? divided
    rw [lexeme_eq]
    exact Nat.lt_add_of_pos_right (byteLength_pos divides.nonempty)
  · intro lexeme member
    obtain ⟨index, atIndex⟩ := List.mem_iff_getElem?.mp member
    obtain ⟨cursor, scan, stands, divided, lexeme_eq⟩ :=
      Cursor.exists_standsBehind_of_lexeme atIndex
    have divides := RuleTable.divides_of_firstMatch? divided
    obtain ⟨front, source_eq, front_eq⟩ := stands.inText
    have text_eq : lexeme.text = scan.found := congrArg Lexeme.text lexeme_eq
    have span_eq := congrArg Lexeme.span lexeme_eq
    refine ⟨front, scan.rest, ?_, ?_, ?_, ?_⟩
    · rw [text_eq, divides.append, source_eq]
    · rw [span_eq, front_eq]
      rfl
    · rw [span_eq, byteLength_append, front_eq, text_eq]
      rfl
    · rw [text_eq, divides.append]
      exact divided
  · obtain ⟨cursor, stands⟩ :=
      Cursor.exists_standsBehind rules source (Nat.le_refl _)
    obtain ⟨front, source_eq, front_eq⟩ := stands.inText
    rcases stands.stuck_or_matched with
      ⟨stuck, -, last_eq⟩ | ⟨lexicalClass, scan, -, -, later⟩
    · rw [last_eq] at source_eq front_eq stuck
      exact ⟨front, source_eq, front_eq, stuck⟩
    · exact absurd later.taken_le (Nat.not_succ_le_self _)

theorem tokenize_eq_tokens_lexemesOf (source : String) :
    tokenize source = (lexemesOf .standard source).tokens :=
  (Cursor.standsBehind_start .standard source).tokens

/-- The text of a literal starts with a quote if it is quoted and only then. -/
theorem quoted_or_head_ne_quote
    {text : List Char}
    (isPiece : (LexicalClass.token .literal).IsPiece text) :
    (∃ body, text = '"' :: body ++ ['"']) ∨ text.head? ≠ some '"' := by
  rcases isPiece with ⟨first, run, rfl, isDigit, -⟩ | ⟨body, -, rfl⟩ | isPattern
  · right
    rw [List.head?_cons, Ne, Option.some.injEq]
    rintro rfl
    exact absurd isDigit (by decide)
  · exact Or.inl ⟨body, rfl⟩
  · right
    obtain ⟨-, -⟩ := isPattern
    simp

/-- By the standard rules, a lexeme is a run of blanks or yields a token. -/
theorem blank_or_yields
    {lexeme : Lexeme}
    {back : List Char}
    (matched : RuleTable.standard.firstMatch? (lexeme.text ++ back) =
      some (lexeme.lexicalClass, ⟨lexeme.text, back⟩)) :
    (lexeme.isBlank ∧ lexeme.token? = none) ∨
      ∃ token, lexeme.token? = some token ∧ lexeme.Yields token := by
  obtain ⟨lexicalClass, text, span⟩ := lexeme
  cases lexicalClass with
  | blank => exact Or.inl ⟨rfl, rfl⟩
  | token kind =>
      refine Or.inr ⟨_, rfl, rfl, rfl, ?_⟩
      simp only [Lexeme.tokenText, String.toList_ofList]
      by_cases isLiteral : kind = .literal
      · subst isLiteral
        have isPiece := (RuleTable.firstMatch?_standard_iff.mp matched).1
        rcases quoted_or_head_ne_quote isPiece with
          ⟨body, text_eq⟩ | notQuote
        · subst text_eq
          simp [Lexeme.withoutQuotes]
        · simp [Lexeme.withoutQuotes_of_head_ne_quote notQuote, notQuote]
      · simp [isLiteral]

/-- Behind its lexemes a text has ended or goes on with what no rule divides. -/
theorem exists_remainder (source : String) :
    ∃ front remainder : String,
      source = front ++ remainder ∧
      (lexemesOf .standard source).last =
        ⟨byteLength front.toList, remainder.toList⟩ ∧
      RuleTable.standard.firstMatch? remainder.toList = none := by
  obtain ⟨front, source_eq, front_eq, stuck⟩ :=
    (tiles_lexemesOf .standard source).ended
  refine ⟨String.ofList front,
    String.ofList (lexemesOf .standard source).remainder, ?_, ?_, ?_⟩
  · rw [← String.toList_inj, String.toList_append, String.toList_ofList,
      String.toList_ofList, source_eq]
  · rw [String.toList_ofList, String.toList_ofList, front_eq]
    rfl
  · rw [String.toList_ofList]
    exact stuck

/-- Every text has one sequence of lexemes, which tiles it. Whatever calls for
lexemes and tokens are mixed, each is answered by the next of these lexemes, with
the offset behind the last one taken; behind the last lexeme of all, every call
has the same answer and takes nothing. All tokens of the text are the tokens of
its lexemes, unless the lexemes end where no rule matches.

There, the rest of the text is either empty, and then there is nothing more to
take, or it is the remainder of an error, whose position is that of the first
byte of the rest, counted from one. This is the error of every call from there
on and of the whole text, and no call has another one. -/
theorem replay_along_lexemes
    (source : String)
    (calls : List Cursor.Call) :
    (lexemesOf .standard source).Tiles .standard source.toList ∧
    (∀ lexeme ∈ (lexemesOf .standard source).lexemes,
      (lexeme.isBlank ∧ lexeme.token? = none) ∨
        ∃ token, lexeme.token? = some token ∧ lexeme.Yields token) ∧
    (Cursor.start source).replay .standard calls =
      (lexemesOf .standard source).replay 0 calls ∧
    (∀ call,
      (lexemesOf .standard source).perform
          (lexemesOf .standard source).lexemes.length call =
        ((lexemesOf .standard source).last.ending call.nothing,
          (lexemesOf .standard source).lexemes.length)) ∧
    tokenize source = (lexemesOf .standard source).tokens ∧
    ∃ front remainder : String,
      source = front ++ remainder ∧
      (lexemesOf .standard source).offsetBehind
          (lexemesOf .standard source).lexemes.length =
        byteLength front.toList ∧
      RuleTable.standard.firstMatch? remainder.toList = none ∧
      (∀ later : List Cursor.Call,
        (lexemesOf .standard source).replay
            (lexemesOf .standard source).lexemes.length later =
          later.map fun call =>
            (if remainder = "" then
                .ok call.nothing
              else
                .error ⟨remainder, byteLength front.toList + 1⟩,
              byteLength front.toList)) ∧
      (∀ error offset,
        (.error error, offset) ∈
            (Cursor.start source).replay .standard calls →
          remainder ≠ "" ∧
          error = ⟨remainder, byteLength front.toList + 1⟩ ∧
          offset = byteLength front.toList) ∧
      tokenize source =
        if remainder = "" then
          .ok ((lexemesOf .standard source).lexemes.filterMap Lexeme.token?)
        else
          .error ⟨remainder, byteLength front.toList + 1⟩ := by
  have tiles := tiles_lexemesOf .standard source
  have atStart := Cursor.standsBehind_start .standard source
  refine ⟨tiles, ?_, atStart.replay calls, LexemeSequence.perform_at_end _,
    atStart.tokens, ?_⟩
  · intro lexeme member
    obtain ⟨front, back, -, -, -, matched⟩ := tiles.divided lexeme member
    exact blank_or_yields matched
  · obtain ⟨front, remainder, source_eq, last_eq, stuck⟩ :=
      exists_remainder source
    have ending_eq {α : Type} (answer : α) :
        (lexemesOf .standard source).last.ending answer =
          if remainder = "" then
            .ok answer
          else
            .error ⟨remainder, byteLength front.toList + 1⟩ := by
      rw [last_eq]
      exact Cursor.ending_eq rfl answer
    have lastOffset_eq :
        (lexemesOf .standard source).last.offset = byteLength front.toList :=
      congrArg Cursor.offset last_eq
    refine ⟨front, remainder, source_eq, lastOffset_eq, stuck, ?_, ?_, ?_⟩
    · intro later
      simp only [LexemeSequence.replay_at_end, ending_eq, lastOffset_eq]
    · intro error offset member
      rw [atStart.replay calls] at member
      obtain ⟨⟨call, failed⟩, offset_eq⟩ :=
        LexemeSequence.ending_of_error_mem_replay (Nat.zero_le _) member
      rw [ending_eq] at failed
      split at failed
      · cases failed
      · rename_i notEnded
        cases failed
        exact ⟨notEnded, rfl, offset_eq.trans lastOffset_eq⟩
    · rw [tokenize_eq_tokens_lexemesOf, LexemeSequence.tokens, ending_eq]

end FilterLang
