import FilterLang.Proofs.Concatenation
import FilterLang.Proofs.LexemeSequence

/-!
# Texts split between lexemes

A text may be split in front of any of its lexemes. The lexemes in front of the
place do not change when the text ends there, for what makes a piece end is
behind it at most, and those behind the place do not change when the text begins
there. The main statement, `tokenize_splits_at_boundaries`, says so of tokens and
of errors, and that an error stands at such a place.
-/

namespace FilterLang

/-- A number of bytes after which some of the lexemes of a text have ended and
the others have not begun. -/
def IsLexemeBoundary
    (source : String)
    (bytes : Nat) : Prop :=
  ∃ taken ≤ (lexemesOf .standard source).lexemes.length,
    (lexemesOf .standard source).offsetBehind taken = bytes

/-- A text is divided at one place if its parts in front of that place are of one
length. -/
theorem eq_of_append_of_byteLength
    {front back other otherBack : List Char}
    (append : front ++ back = other ++ otherBack)
    (sameLength : byteLength front = byteLength other) :
    front = other ∧ back = otherBack := by
  rcases List.append_eq_append_iff.mp append with
    ⟨between, rfl, rfl⟩ | ⟨between, rfl, rfl⟩
  · have empty : between = [] := by simpa using sameLength
    simp [empty]
  · have empty : between = [] := by simpa using sameLength
    simp [empty]

/-- One more piece in front of the other text, by induction along the pieces
before it. -/
theorem DividesBefore.snoc
    {text found later : List Char}
    {lexicalClass : LexicalClass}
    (divides : DividesBefore (found ++ later) text)
    (matched : RuleTable.standard.firstMatch? (found ++ later) =
      some (lexicalClass, ⟨found, later⟩)) :
    DividesBefore later (text ++ found) := by
  induction divides with
  | nil =>
      have last : DividesBefore later (found ++ []) :=
        .piece (by rwa [List.append_nil]) .nil
      rwa [List.append_nil] at last
  | @piece _ first rest firstMatched _ hypothesis =>
      rw [← List.append_assoc rest, ← List.append_assoc,
        List.append_assoc first] at firstMatched
      rw [List.append_assoc]
      exact .piece firstMatched hypothesis

/-- Behind any number of lexemes stands a cursor, and the rules divide the text
in front of it into pieces without it. -/
theorem exists_dividesBefore
    (source : String)
    {taken : Nat}
    (taken_le : taken ≤ (lexemesOf .standard source).lexemes.length) :
    ∃ (front : List Char) (cursor : Cursor),
      cursor.StandsBehind .standard source.toList
        (lexemesOf .standard source) taken ∧
      source.toList = front ++ cursor.rest ∧
      byteLength front = cursor.offset ∧
      DividesBefore cursor.rest front := by
  induction taken with
  | zero =>
      exact ⟨[], _, Cursor.standsBehind_start .standard source, rfl, rfl, .nil⟩
  | succ taken hypothesis =>
      obtain ⟨front, cursor, stands, source_eq, front_eq, divides⟩ :=
        hypothesis (Nat.le_of_succ_le taken_le)
      rcases stands.stuck_or_matched with
        ⟨-, ended, -⟩ | ⟨lexicalClass, scan, matched, -, later⟩
      · omega
      · have append := (RuleTable.divides_of_firstMatch? matched).append
        refine ⟨front ++ scan.found, _, later, ?_, ?_, ?_⟩
        · rw [source_eq, List.append_assoc, Cursor.past, append]
        · rw [byteLength_append, front_eq, Cursor.past]
        · rw [← append] at divides matched
          exact divides.snoc matched

/-- The part of a text in front of a boundary is divided without the part behind
it. -/
theorem IsLexemeBoundary.dividesBefore
    {first second : String}
    (boundary : IsLexemeBoundary (first ++ second) (byteLength first.toList)) :
    DividesBefore second.toList first.toList := by
  obtain ⟨taken, taken_le, offset_eq⟩ := boundary
  obtain ⟨front, cursor, stands, source_eq, front_eq, divides⟩ :=
    exists_dividesBefore (first ++ second) taken_le
  have sameLength : byteLength front = byteLength first.toList := by
    rw [front_eq, stands.offset_eq, offset_eq]
  rw [String.toList_append] at source_eq
  obtain ⟨first_eq, second_eq⟩ :=
    eq_of_append_of_byteLength source_eq sameLength.symm
  rwa [first_eq, second_eq]

/-- The tokens in front of a boundary are those of the text up to there, and the
rest is that of the text from there on, moved. -/
theorem IsLexemeBoundary.tokenize_append
    {first second : String}
    (boundary : IsLexemeBoundary (first ++ second) (byteLength first.toList)) :
    ∃ front, tokenize first = .ok front ∧
      tokenize (first ++ second) =
        (shiftTokens (byteLength first.toList) (tokenize second)).map
          (front ++ ·) := by
  obtain ⟨front, frontTokens, append⟩ := boundary.dividesBefore.tokens 0
  refine ⟨front, frontTokens, ?_⟩
  rw [tokenize, tokenizeWith, Cursor.start, String.toList_append, append,
    Nat.zero_add]
  exact congrArg _ (Cursor.tokens_shift .standard _ 0 second.toList)

/-- Where no rule matches, no class recognises anything. -/
theorem RuleTable.scan?_of_stuck
    {text : List Char}
    (stuck : standard.firstMatch? text = none)
    (lexicalClass : LexicalClass) :
    lexicalClass.scan? text = none := by
  have unmatched :=
    List.findSome?_eq_none_iff.mp stuck lexicalClass (mem_standard lexicalClass)
  exact Option.map_eq_none_iff.mp unmatched

/-- An error stands behind all lexemes, at the text that is left of the source
there. -/
theorem exists_boundary_of_error
    {source : String}
    {error : LexError}
    (failed : tokenize source = .error error) :
    ∃ first, source = first ++ error.remainder ∧
      error.position = byteLength first.toList + 1 ∧
      IsLexemeBoundary source (byteLength first.toList) ∧
      error.remainder ≠ "" ∧
      RuleTable.standard.firstMatch? error.remainder.toList = none := by
  obtain ⟨front, remainder, source_eq, last_eq, stuck⟩ :=
    exists_remainder source
  rw [tokenize_eq_tokens_lexemesOf, LexemeSequence.tokens, last_eq,
    Cursor.ending_eq rfl] at failed
  split at failed
  · cases failed
  · rename_i notEnded
    cases failed
    have boundary : IsLexemeBoundary source (byteLength front.toList) :=
      ⟨_, Nat.le_refl _, congrArg Cursor.offset last_eq⟩
    exact ⟨front, source_eq, rfl, boundary, notEnded, stuck⟩

/-- At a boundary between lexemes, a text may be split. The part in front has
tokens, and they are the first ones of the whole text. If the part behind has
tokens as well, they follow, moved by the bytes in front; if it has an error, so
does the whole text, with the same remainder and at the place moved by the bytes
in front. An error stands at such a boundary: the bytes before its place are a
text with tokens, and the remainder starts with nothing that any class
recognises. -/
theorem tokenize_splits_at_boundaries :
    (∀ first second : String,
      IsLexemeBoundary (first ++ second) (byteLength first.toList) →
        ∃ front, tokenize first = .ok front ∧
          (∀ back, tokenize second = .ok back →
            tokenize (first ++ second) =
              .ok (front ++
                back.map (Token.shift (byteLength first.toList)))) ∧
          (∀ error, tokenize second = .error error →
            tokenize (first ++ second) =
              .error ⟨error.remainder,
                byteLength first.toList + error.position⟩)) ∧
    (∀ (source : String) (error : LexError),
      tokenize source = .error error →
        ∃ first, source = first ++ error.remainder ∧
          error.position = byteLength first.toList + 1 ∧
          (∃ front, tokenize first = .ok front) ∧
          error.remainder ≠ "" ∧
          ∀ lexicalClass : LexicalClass,
            lexicalClass.scan? error.remainder.toList = none) := by
  constructor
  · intro first second boundary
    obtain ⟨front, frontTokens, append⟩ := boundary.tokenize_append
    refine ⟨front, frontTokens, ?_, ?_⟩
    · intro back backTokens
      rw [append, backTokens]
      rfl
    · intro error failed
      rw [append, failed]
      rfl
  · intro source error failed
    obtain ⟨first, source_eq, position_eq, boundary, nonempty, stuck⟩ :=
      exists_boundary_of_error failed
    rw [source_eq] at boundary
    obtain ⟨front, frontTokens, -⟩ := boundary.tokenize_append
    exact ⟨first, source_eq, position_eq, ⟨front, frontTokens⟩, nonempty,
      RuleTable.scan?_of_stuck stuck⟩

theorem tokenize_splits_behind_quoted_value :
    IsLexemeBoundary ("\"é\"" ++ "<#") 4 ∧
      tokenize ("\"é\"" ++ "<#") = .error ⟨"#", 4 + 2⟩ ∧
      ∃ first, "\"é\"" ++ "<#" = first ++ "#" ∧
        ∃ front, tokenize first = .ok front := by
  have quoted : RuleTable.standard.firstMatch? ("\"é\"" ++ "<#").toList =
      some (.token .literal, ⟨['"', 'é', '"'], ['<', '#']⟩) := by
    decide
  have lessThan : RuleTable.standard.firstMatch? "<#".toList =
      some (.token (.comparison .lessThan), ⟨['<'], ['#']⟩) := by
    decide
  have stuck : RuleTable.standard.firstMatch? ['#'] = none := by
    decide
  have boundary : IsLexemeBoundary ("\"é\"" ++ "<#") 4 := by
    rw [IsLexemeBoundary, lexemesOf, lexemesFrom_of_firstMatch? quoted]
    exact ⟨1, Nat.le_add_left _ _, rfl⟩
  have secondFails : tokenize "<#" = .error ⟨"#", 2⟩ := by
    rw [tokenize_eq_tokens_lexemesOf, lexemesOf,
      lexemesFrom_of_firstMatch? lessThan, lexemesFrom_of_stuck stuck]
    rfl
  obtain ⟨-, -, -, failing⟩ :=
    tokenize_splits_at_boundaries.1 "\"é\"" "<#" boundary
  have failed := failing _ secondFails
  obtain ⟨first, source_eq, -, divided, -⟩ :=
    tokenize_splits_at_boundaries.2 _ _ failed
  exact ⟨boundary, failed, first, source_eq, divided⟩

end FilterLang
