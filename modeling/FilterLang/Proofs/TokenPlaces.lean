import FilterLang.Proofs.LexemeSequence

/-!
# Where the tokens of a text stand

Every token of a source text is that of a lexeme, and different lexemes share no
byte. So the byte of a parenthesis is that of a parenthesis in the text, and
belongs to no other token.
-/

namespace FilterLang

namespace LexemeSequence

/-- A lexeme ends before any later one starts. -/
theorem Tiles.stop_le_start
    {sequence : LexemeSequence}
    {rules : RuleTable}
    {source : List Char}
    (tiles : sequence.Tiles rules source)
    {index laterIndex : Nat}
    {lexeme later : Lexeme}
    (atIndex : sequence.lexemes[index]? = some lexeme)
    (atLater : sequence.lexemes[laterIndex]? = some later)
    (less : index < laterIndex) :
    lexeme.span.stop ≤ later.span.start := by
  induction laterIndex generalizing later with
  | zero => omega
  | succ last hypothesis =>
      have last_lt : last < sequence.lexemes.length := by
        have later_lt := (List.getElem?_eq_some_iff.mp atLater).1
        omega
      have atLast : sequence.lexemes[last]? = some sequence.lexemes[last] :=
        List.getElem?_eq_getElem last_lt
      have start_eq : later.span.start = sequence.lexemes[last].span.stop := by
        rw [tiles.adjacent (last + 1) later atLater, offsetBehind, atLast]
        rfl
      rcases Nat.lt_succ_iff_lt_or_eq.mp less with before | rfl
      · have earlier := hypothesis atLast before
        have nonempty := tiles.nonempty _ (List.getElem_mem last_lt)
        omega
      · rw [atIndex, Option.some.injEq] at atLast
        exact Nat.le_of_eq (by rw [start_eq, ← atLast])

end LexemeSequence

theorem Lexeme.token?_eq_some_iff
    {lexeme : Lexeme}
    {token : Token} :
    lexeme.token? = some token ↔
      lexeme.lexicalClass = .token token.kind ∧
        token.text = String.ofList (tokenText token.kind lexeme.text) ∧
        token.span = lexeme.span := by
  obtain ⟨lexicalClass, text, span⟩ := lexeme
  obtain ⟨kind, tokenText, tokenSpan⟩ := token
  cases lexicalClass with
  | blank => simp [token?]
  | token otherKind =>
      simp only [token?, Option.some.injEq, Token.mk.injEq,
        LexicalClass.token.injEq]
      constructor
      · rintro ⟨rfl, rfl, rfl⟩
        exact ⟨rfl, rfl, rfl⟩
      · rintro ⟨rfl, rfl, rfl⟩
        exact ⟨rfl, rfl, rfl⟩

/-- Every token of a text is that of one of its lexemes. -/
theorem exists_lexeme_of_tokenize
    {source : String}
    {tokens : List Token}
    (divided : tokenize source = .ok tokens)
    {token : Token}
    (member : token ∈ tokens) :
    ∃ (index : Nat) (lexeme : Lexeme),
      (lexemesOf .standard source).lexemes[index]? = some lexeme ∧
      lexeme.token? = some token := by
  have tokens_eq : tokenize source = _ :=
    (Cursor.standsBehind_start .standard source).tokens
  rw [divided, eq_comm, Cursor.ending_eq_ok_iff, List.drop_zero] at tokens_eq
  obtain ⟨-, rfl⟩ := tokens_eq
  obtain ⟨lexeme, lexemeMember, yields⟩ := List.mem_filterMap.mp member
  obtain ⟨index, atIndex⟩ := List.mem_iff_getElem?.mp lexemeMember
  exact ⟨index, lexeme, atIndex, yields⟩

/-- Tokens of different kinds share no byte of the text. -/
theorem span_apart_of_kind_ne
    {source : String}
    {tokens : List Token}
    (divided : tokenize source = .ok tokens)
    {token other : Token}
    (member : token ∈ tokens)
    (otherMember : other ∈ tokens)
    (different : token.kind ≠ other.kind) :
    token.span.stop ≤ other.span.start ∨
      other.span.stop ≤ token.span.start := by
  have tiles := tiles_lexemesOf .standard source
  obtain ⟨index, lexeme, atIndex, yields⟩ :=
    exists_lexeme_of_tokenize divided member
  obtain ⟨otherIndex, otherLexeme, atOther, otherYields⟩ :=
    exists_lexeme_of_tokenize divided otherMember
  have span_eq := (Lexeme.token?_eq_some_iff.mp yields).2.2
  have otherSpan_eq := (Lexeme.token?_eq_some_iff.mp otherYields).2.2
  rw [span_eq, otherSpan_eq]
  rcases Nat.lt_trichotomy index otherIndex with before | rfl | behind
  · exact Or.inl (tiles.stop_le_start atIndex atOther before)
  · rw [atIndex, Option.some.injEq] at atOther
    subst atOther
    rw [yields, Option.some.injEq] at otherYields
    exact absurd (congrArg Token.kind otherYields) different
  · exact Or.inr (tiles.stop_le_start atOther atIndex behind)

/-- The position of an opening parenthesis is that of one in the text, which is
part of no literal. -/
theorem openParen_in_source
    {source : String}
    {tokens : List Token}
    (divided : tokenize source = .ok tokens)
    {opening : Token}
    (member : opening ∈ tokens)
    (isOpening : opening.kind = .openParen) :
    ∃ front back,
      source.toList = front ++ '(' :: back ∧
      byteLength front + 1 = opening.position ∧
      ∀ literal ∈ tokens, literal.kind = .literal →
        byteLength front < literal.span.start ∨
          literal.span.stop ≤ byteLength front := by
  obtain ⟨index, lexeme, atIndex, yields⟩ :=
    exists_lexeme_of_tokenize divided member
  obtain ⟨class_eq, -, span_eq⟩ := Lexeme.token?_eq_some_iff.mp yields
  obtain ⟨front, back, source_eq, start_eq, stop_eq, matched⟩ :=
    (tiles_lexemesOf .standard source).divided lexeme
      (List.mem_of_getElem? atIndex)
  have text_eq : lexeme.text = ['('] := by
    have isPiece := (RuleTable.firstMatch?_standard_iff.mp matched).1
    rw [class_eq, isOpening] at isPiece
    exact isPiece
  rw [text_eq] at source_eq stop_eq
  refine ⟨front, back, source_eq, ?_, ?_⟩
  · rw [Token.position, span_eq, start_eq]
  · intro literal literalMember isLiteral
    have apart := span_apart_of_kind_ne divided member literalMember (by
      rw [isOpening, isLiteral]
      simp)
    rw [span_eq, ← start_eq, ← stop_eq] at apart
    rw [byteLength_append] at apart
    have one : byteLength ['('] = 1 := by decide
    omega

end FilterLang
