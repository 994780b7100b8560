import FilterLang.Proofs.LexemeSequence

/-!
# The order of the rules

The rules may be tried in any order that keeps the order of each pair of rules
that overlap. Of such a pair the rule that is tried first recognises the longer
piece, but for keywords, which are tried before the words that start with them.
The main statement is `order_matters_for_overlaps_only`.
-/

namespace FilterLang

/-- Tables by which the same piece is divided off at every place give the same
lexemes, by induction along these pieces. -/
theorem lexemesFrom_congr
    {rules other : RuleTable}
    (samePiece : ∀ text, rules.firstMatch? text = other.firstMatch? text)
    (offset : Nat)
    (text : List Char) :
    lexemesFrom rules offset text = lexemesFrom other offset text := by
  induction text using RuleTable.textInduction rules generalizing offset with
  | stuck text stuck =>
      have otherStuck := (samePiece text).symm.trans stuck
      rw [lexemesFrom_of_stuck stuck, lexemesFrom_of_stuck otherStuck]
  | divided text lexicalClass scan matched hypothesis =>
      have otherMatched := (samePiece text).symm.trans matched
      rw [lexemesFrom_of_firstMatch? matched,
        lexemesFrom_of_firstMatch? otherMatched, hypothesis]

namespace RuleTable

open LexicalClass

theorem KeepsOverlapOrder.lexemesOf_eq
    {rules : RuleTable}
    (keepsOrder : rules.KeepsOverlapOrder)
    (source : String) :
    lexemesOf rules source = lexemesOf standard source :=
  lexemesFrom_congr keepsOrder.firstMatch?_eq 0 source.toList

/-- Of the rules that recognise something at a place, the one that applies
overlaps all others and is tried before them. -/
theorem overlap_of_firstMatch?
    {text : List Char}
    {winner other : LexicalClass}
    {scan otherScan : Scan}
    (matched : standard.firstMatch? text = some (winner, scan))
    (different : other ≠ winner)
    (recognised : other.scan? text = some otherScan) :
    (winner, other) ∈ overlaps := by
  obtain ⟨winnerRecognised, unrecognised⟩ :=
    firstMatch?_eq_some_iff_overlaps.mp matched
  rcases overlap_of_scan? different recognised winnerRecognised with
    overlap | overlap
  · rw [unrecognised other overlap] at recognised
    exact absurd recognised (Option.some_ne_none otherScan).symm
  · exact overlap

/-- Where a keyword is recognised, so is a word that starts with it. -/
theorem isWord_of_keyword
    {kind : TokenKind}
    {text : List Char}
    {scan word : Scan}
    (isKeyword : kind ∈ keywordKinds)
    (recognised : (token kind).scan? text = some scan)
    (wordRecognised : (token .identifier).scan? text = some word) :
    IsWord word.found ∧ scan.found <+: word.found := by
  obtain ⟨isRun, stops, append⟩ :=
    Scan.run?_eq_some_iff_isRun.mp wordRecognised
  refine ⟨isWord_iff_isRun.mpr isRun, ?_⟩
  rw [scan?_keyword isKeyword] at recognised
  obtain ⟨spelled, scanAppend⟩ := keyword_scan?_eq_some_iff.mp recognised
  rcases List.append_eq_append_iff.mp (scanAppend.trans append.symm) with
    ⟨later, word_eq, -⟩ | ⟨beyond, scan_eq, rest_eq⟩
  · exact ⟨later, word_eq.symm⟩
  · cases beyond with
    | nil =>
        rw [List.append_nil] at scan_eq
        exact scan_eq ▸ List.prefix_refl scan.found
    | cons letter beyond =>
        -- A letter of the keyword behind the word would have gone on with it.
        have inKeyword : letter.toUpper ∈ kind.name.toList := by
          rw [← spelled, scan_eq]
          exact List.mem_map_of_mem (by simp)
        have isLetter := isAlpha_of_toUpper_mem_keyword
          (mem_keywords_iff.mpr ⟨kind, isKeyword, rfl⟩) inKeyword
        rw [rest_eq] at stops
        have notInWord : isWordCharacter letter = false := stops letter rfl
        rw [isWordCharacter_of_isAlpha isLetter] at notInWord
        exact absurd notInWord Bool.true_eq_false.mp

/-- Of two rules that overlap, the one that is tried first recognises more, or
it is that of a keyword with which a word starts. -/
theorem length_lt_or_keyword_of_overlap
    {text : List Char}
    {winner other : LexicalClass}
    {scan otherScan : Scan}
    (overlap : (winner, other) ∈ overlaps)
    (recognised : winner.scan? text = some scan)
    (otherRecognised : other.scan? text = some otherScan) :
    otherScan.found.length < scan.found.length ∨
      ∃ kind ∈ keywordKinds,
        winner = .token kind ∧ other = .token .identifier ∧
          IsWord otherScan.found ∧ scan.found <+: otherScan.found := by
  have keyword
      {kind : TokenKind}
      (isKeyword : kind ∈ keywordKinds)
      (winner_eq : winner = .token kind)
      (other_eq : other = .token .identifier) :
      ∃ kind ∈ keywordKinds,
        winner = .token kind ∧ other = .token .identifier ∧
          IsWord otherScan.found ∧ scan.found <+: otherScan.found := by
    refine ⟨kind, isKeyword, winner_eq, other_eq, ?_⟩
    rw [winner_eq] at recognised
    rw [other_eq] at otherRecognised
    exact isWord_of_keyword isKeyword recognised otherRecognised
  have comparison
      {longer shorter : Comparison}
      (longerSymbol :
        shorter.symbol.toList.length < longer.symbol.toList.length)
      (winner_eq : winner = .token (.comparison longer))
      (other_eq : other = .token (.comparison shorter)) :
      otherScan.found.length < scan.found.length := by
    rw [winner_eq] at recognised
    rw [other_eq] at otherRecognised
    have length := (Scan.append_of_spelling? recognised).2
    have otherLength := (Scan.append_of_spelling? otherRecognised).2
    rwa [length, otherLength]
  simp only [overlaps, List.mem_cons, List.not_mem_nil, or_false,
    Prod.mk.injEq] at overlap
  rcases overlap with
    ⟨winner_eq, other_eq⟩ | ⟨winner_eq, other_eq⟩ | ⟨winner_eq, other_eq⟩ |
      ⟨winner_eq, other_eq⟩ | ⟨winner_eq, other_eq⟩
  · exact Or.inl (comparison (by decide) winner_eq other_eq)
  · exact Or.inl (comparison (by decide) winner_eq other_eq)
  · exact Or.inr (keyword (by decide) winner_eq other_eq)
  · exact Or.inr (keyword (by decide) winner_eq other_eq)
  · exact Or.inr (keyword (by decide) winner_eq other_eq)

end RuleTable

/-- Two different rules recognise something at one place only if they are `<=`
and `<`, `>=` and `>`, or a keyword and the rule for names. Any order of the rules
that keeps the order of these five pairs gives every source text the same
lexemes and tokens, the same answers to all calls, and the same error. The rule
that applies recognises more than any other, unless it is that of a keyword with
which a word starts, and the other is the rule for names. -/
theorem order_matters_for_overlaps_only :
    (∀ (text : List Char) (first second : LexicalClass),
      first ≠ second →
        (first.scan? text).isSome → (second.scan? text).isSome →
          (first, second) ∈ RuleTable.overlaps ∨
            (second, first) ∈ RuleTable.overlaps) ∧
    (∀ rules : RuleTable,
      rules.KeepsOverlapOrder →
        ∀ (source : String) (calls : List Cursor.Call),
          lexemesOf rules source = lexemesOf .standard source ∧
          tokenizeWith rules source = tokenize source ∧
          (Cursor.start source).replay rules calls =
            (Cursor.start source).replay .standard calls) ∧
    ∀ (text : List Char) (winner : LexicalClass) (scan : Scan),
      RuleTable.standard.firstMatch? text = some (winner, scan) →
        ∀ (other : LexicalClass) (otherScan : Scan),
          other ≠ winner → other.scan? text = some otherScan →
            otherScan.found.length < scan.found.length ∨
              ∃ kind ∈ keywordKinds,
                winner = .token kind ∧ other = .token .identifier ∧
                  IsWord otherScan.found ∧
                    scan.found <+: otherScan.found := by
  refine ⟨?_, ?_, ?_⟩
  · intro text first second different firstRecognised secondRecognised
    obtain ⟨firstScan, firstScan_eq⟩ :=
      Option.isSome_iff_exists.mp firstRecognised
    obtain ⟨secondScan, secondScan_eq⟩ :=
      Option.isSome_iff_exists.mp secondRecognised
    exact RuleTable.overlap_of_scan? different firstScan_eq secondScan_eq
  · intro rules keepsOrder source calls
    have sameLexemes := keepsOrder.lexemesOf_eq source
    have atStart := Cursor.standsBehind_start rules source
    have atStandardStart := Cursor.standsBehind_start .standard source
    rw [sameLexemes] at atStart
    refine ⟨sameLexemes, ?_, ?_⟩
    · exact atStart.tokens.trans atStandardStart.tokens.symm
    · rw [atStart.replay calls, atStandardStart.replay calls]
  · intro text winner scan matched other otherScan different otherRecognised
    have overlap :=
      RuleTable.overlap_of_firstMatch? matched different otherRecognised
    have recognised := (RuleTable.scan?_of_firstMatch? matched).2
    exact RuleTable.length_lt_or_keyword_of_overlap overlap recognised
      otherRecognised

theorem order_matters_for_overlaps_only_rotated :
    RuleTable.KeepsOverlapOrder (RuleTable.standard.rotateLeft 12) ∧
    tokenizeWith (RuleTable.standard.rotateLeft 12) "Andrew<=1 #" =
      tokenize "Andrew<=1 #" ∧
    (LexicalClass.token .identifier, LexicalClass.token .and) ∉
      RuleTable.overlaps ∧
    (LexicalClass.token .and, LexicalClass.token .identifier) ∈
      RuleTable.overlaps ∧
    RuleTable.standard.firstMatch? "Andrew<=1 #".toList =
      some (.token .and, ⟨"And".toList, "rew<=1 #".toList⟩) ∧
    IsWord "Andrew".toList := by
  have keepsOrder :
      RuleTable.KeepsOverlapOrder (RuleTable.standard.rotateLeft 12) :=
    ⟨by decide, by decide⟩
  have notOverlap :
      (LexicalClass.token .identifier, LexicalClass.token .and) ∉
        RuleTable.overlaps := by
    decide
  have matched : RuleTable.standard.firstMatch? "Andrew<=1 #".toList =
      some (.token .and, ⟨"And".toList, "rew<=1 #".toList⟩) := by
    decide
  have wordRecognised :
      (LexicalClass.token .identifier).scan? "Andrew<=1 #".toList =
        some ⟨"Andrew".toList, "<=1 #".toList⟩ := by
    decide
  obtain ⟨overlap, sameTokens, longest⟩ := order_matters_for_overlaps_only
  refine ⟨keepsOrder, (sameTokens _ keepsOrder _ []).2.1, notOverlap, ?_,
    matched, ?_⟩
  · have either := overlap "Andrew<=1 #".toList (.token .and)
      (.token .identifier) (by decide) (by decide) (by decide)
    exact either.resolve_right notOverlap
  · have shorterOrWord :=
      longest _ _ _ matched _ _ (by decide) wordRecognised
    obtain ⟨-, -, -, -, isWord, -⟩ := shorterOrWord.resolve_left (by decide)
    exact isWord

end FilterLang
