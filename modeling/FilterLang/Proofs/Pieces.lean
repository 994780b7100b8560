import FilterLang.Lexeme.Cursor
import FilterLang.Proofs.Overlaps
import Mathlib.Data.List.Basic

/-!
# Pieces and where they end

A piece that the standard rules divide off can be described without the rules:
by its own characters, and by the one character behind it, with which it must
not go on. The main statement, `firstMatch?_standard_iff`, says so of all
classes. Whether a piece is divided off therefore depends on nothing behind that
character.
-/

namespace FilterLang

/-- A character of one class with characters of another class behind it. -/
def IsRun
    (first later : Char → Bool)
    (text : List Char) : Prop :=
  ∃ character run, text = character :: run ∧ first character ∧
    ∀ other ∈ run, later other

theorem isWord_iff_isRun
    {text : List Char} :
    IsWord text ↔ IsRun Char.isAlpha LexicalClass.isWordCharacter text := by
  constructor
  · rintro ⟨firstLetter, laterCharacters⟩
    exact ⟨_, _, rfl, firstLetter, laterCharacters⟩
  · rintro ⟨first, later, rfl, firstLetter, laterCharacters⟩
    exact .word firstLetter laterCharacters

/-- A text between two delimiters. -/
def IsEnclosed
    (delimiter : Char)
    (text : List Char) : Prop :=
  ∃ body, delimiter ∉ body ∧ text = delimiter :: body ++ [delimiter]

namespace LexicalClass

/-- The texts that can be pieces of a class. -/
def IsPiece : LexicalClass → List Char → Prop
  | blank, text => IsRun isBlank isBlank text
  | token (.operator (.binary (.comparison kind))), text =>
      text = kind.symbol.toList
  | token (.operator operator), text =>
      text.map Char.toUpper = operator.name.toList
  | token .identifier, text =>
      IsRun Char.isAlpha isWordCharacter text ∧ ¬StartsWithKeyword text
  | token .literal, text =>
      IsRun Char.isDigit isWordCharacter text ∨ IsEnclosed '"' text ∨
        IsPattern text
  | token .openParen, text => text = ['(']
  | token .closeParen, text => text = [')']

theorem isWordCharacter_of_isAlpha
    {character : Char}
    (isAlpha : character.isAlpha) :
    isWordCharacter character := by
  simp [isWordCharacter, Char.isAlphanum, isAlpha]

/-- Whether a literal would go on with a further character. -/
def literalGoesOn : List Char → Char → Bool
  | '"' :: _ => fun _ => false
  | '/' :: _ => Char.isLower
  | _ => isWordCharacter

/-- Whether a piece of a class would not end before a further character. -/
def goesOn : LexicalClass → List Char → Char → Bool
  | blank, _ => isBlank
  | token (.operator (.binary (.comparison .lessThan))), _ => (· = '=')
  | token (.operator (.binary (.comparison .greaterThan))), _ => (· = '=')
  | token .identifier, _ => isWordCharacter
  | token .literal, text => literalGoesOn text
  | _, _ => fun _ => false

end LexicalClass

/-! ## Scans -/

theorem stopsRun_false (text : List Char) : StopsRun (fun _ => false) text := by
  intro character _
  rfl

theorem Scan.run?_eq_some_iff_isRun
    {first later : Char → Bool}
    {text : List Char}
    {scan : Scan} :
    Scan.run? first later text = some scan ↔
      IsRun first later scan.found ∧ StopsRun later scan.rest ∧
        scan.found ++ scan.rest = text := by
  rw [Scan.run?_eq_some_iff]
  constructor
  · rintro ⟨character, run, found_eq, isFirst, runLater, stops, append⟩
    exact ⟨⟨character, run, found_eq, isFirst, runLater⟩, stops, append⟩
  · rintro ⟨⟨character, run, found_eq, isFirst, runLater⟩, stops, append⟩
    exact ⟨character, run, found_eq, isFirst, runLater, stops, append⟩

theorem Scan.spelling?_eq_some_iff_eq
    {letters text : List Char}
    {scan : Scan} :
    Scan.spelling? (· = ·) letters text = some scan ↔
      scan.found = letters ∧ scan.found ++ scan.rest = text := by
  have sameShape :
      ∀ letter character : Char,
        decide (letter = character) = decide (letter = id character) :=
    fun _ _ => rfl
  rw [Scan.spelling?_eq_some_iff sameShape, List.map_id]

namespace LexicalClass

theorem enclosed?_of_isPattern
    {pattern rest : List Char}
    (isPattern : IsPattern pattern)
    (stops : StopsRun Char.isLower rest) :
    (Scan.enclosed? '/' (pattern ++ rest)).map (Scan.extend Char.isLower) =
      some ⟨pattern, rest⟩ := by
  obtain ⟨noSlash, flagLetters⟩ := isPattern
  rename_i body flags
  have enclosed :
      Scan.enclosed? '/' ('/' :: body ++ '/' :: flags ++ rest) =
        some ⟨'/' :: body ++ ['/'], flags ++ rest⟩ := by
    apply Scan.enclosed?_eq_some_iff.mpr
    exact ⟨body, noSlash, rfl, by simp⟩
  obtain ⟨taken, dropped⟩ :=
    longestRun_iff.mpr
      (And.intro (Eq.refl (flags ++ rest)) ⟨flagLetters, stops⟩)
  rw [enclosed, Option.map_some, Scan.extend, taken, dropped]
  simp

theorem literalGoesOn_of_isDigit
    {digit : Char}
    {run : List Char}
    (isDigit : digit.isDigit) :
    literalGoesOn (digit :: run) = isWordCharacter := by
  unfold literalGoesOn
  split <;> simp_all

theorem literalGoesOn_of_isPattern
    {pattern : List Char}
    (isPattern : IsPattern pattern) :
    literalGoesOn pattern = Char.isLower := by
  cases isPattern
  rfl

theorem isPiece_of_scanLiteral?
    {text : List Char}
    {scan : Scan}
    (recognised : scanLiteral? text = some scan) :
    (token .literal).IsPiece scan.found ∧
      StopsRun (literalGoesOn scan.found) scan.rest := by
  have divides := divides_of_scanLiteral? recognised
  simp only [scanLiteral?, Option.or_eq_some_iff] at recognised
  rcases recognised with word | ⟨-, quoted | ⟨-, pattern⟩⟩
  · obtain ⟨isRun, stops, -⟩ := Scan.run?_eq_some_iff_isRun.mp word
    refine ⟨Or.inl isRun, ?_⟩
    obtain ⟨digit, run, found_eq, isDigit, -⟩ := isRun
    rwa [found_eq, literalGoesOn_of_isDigit isDigit]
  · obtain ⟨body, noQuote, found_eq, -⟩ :=
      Scan.enclosed?_eq_some_iff.mp quoted
    refine ⟨Or.inr (Or.inl ⟨body, noQuote, found_eq⟩), ?_⟩
    rw [found_eq]
    exact stopsRun_false scan.rest
  · obtain ⟨enclosed, slashes, rfl⟩ := Option.map_eq_some_iff.mp pattern
    obtain ⟨body, noSlash, found_eq, -⟩ :=
      Scan.enclosed?_eq_some_iff.mp slashes
    obtain ⟨-, flagLetters, stops⟩ := longestRun Char.isLower enclosed.rest
    have shape :
        (enclosed.extend Char.isLower).found =
          '/' :: body ++ '/' :: enclosed.rest.takeWhile Char.isLower := by
      rw [Scan.extend, found_eq, List.append_assoc, List.singleton_append]
    rw [shape]
    exact ⟨Or.inr (Or.inr (.pattern noSlash flagLetters)), stops⟩

/-- The three forms of a literal differ in their first characters. -/
theorem scanLiteral?_of_isPiece
    {found rest : List Char}
    (isPiece : (token .literal).IsPiece found)
    (stops : StopsRun (literalGoesOn found) rest) :
    scanLiteral? (found ++ rest) = some ⟨found, rest⟩ := by
  rcases isPiece with isRun | ⟨body, noQuote, rfl⟩ | isPattern
  · have stopsWord : StopsRun isWordCharacter rest := by
      obtain ⟨digit, run, found_eq, isDigit, -⟩ := isRun
      rwa [found_eq, literalGoesOn_of_isDigit isDigit] at stops
    have word :
        Scan.run? Char.isDigit isWordCharacter (found ++ rest) =
          some ⟨found, rest⟩ :=
      Scan.run?_eq_some_iff_isRun.mpr ⟨isRun, stopsWord, rfl⟩
    rw [scanLiteral?, word, Option.some_or]
  · have notDigit :
        Scan.run? Char.isDigit isWordCharacter
          ('"' :: body ++ ['"'] ++ rest) = none := by
      rfl
    have quoted :
        Scan.enclosed? '"' ('"' :: body ++ ['"'] ++ rest) =
          some ⟨'"' :: body ++ ['"'], rest⟩ :=
      Scan.enclosed?_eq_some_iff.mpr ⟨body, noQuote, rfl, rfl⟩
    rw [scanLiteral?, notDigit, quoted, Option.none_or, Option.some_or]
  · have pattern :
        (Scan.enclosed? '/' (found ++ rest)).map (Scan.extend Char.isLower) =
          some ⟨found, rest⟩ := by
      apply enclosed?_of_isPattern isPattern
      rwa [literalGoesOn_of_isPattern isPattern] at stops
    have notOther :
        Scan.run? Char.isDigit isWordCharacter (found ++ rest) = none ∧
          Scan.enclosed? '"' (found ++ rest) = none := by
      cases isPattern
      exact ⟨rfl, rfl⟩
    rw [scanLiteral?, notOther.1, notOther.2, pattern, Option.none_or,
      Option.none_or]

theorem scanLiteral?_eq_some_iff
    {text : List Char}
    {scan : Scan} :
    scanLiteral? text = some scan ↔
      (token .literal).IsPiece scan.found ∧
        StopsRun (literalGoesOn scan.found) scan.rest ∧
        scan.found ++ scan.rest = text := by
  constructor
  · intro recognised
    obtain ⟨isPiece, stops⟩ := isPiece_of_scanLiteral? recognised
    exact ⟨isPiece, stops, (divides_of_scanLiteral? recognised).append⟩
  · rintro ⟨isPiece, stops, rfl⟩
    exact scanLiteral?_of_isPiece isPiece stops

end LexicalClass

/-! ## Pieces -/

namespace RuleTable

open LexicalClass

theorem spelling?_pair_eq_none_iff
    {first second : Char}
    {rest : List Char} :
    Scan.spelling? (· = ·) [first, second] (first :: rest) = none ↔
      StopsRun (· = second) rest := by
  cases rest with
  | nil => simp [Scan.spelling?, StopsRun]
  | cons character rest =>
      simp [Scan.spelling?, StopsRun, eq_comm]

theorem overlaps_identifier_iff
    {other : LexicalClass} :
    (other, .token .identifier) ∈ overlaps ↔
      ∃ kind ∈ keywordKinds, other = .token kind := by
  simp [overlaps, keywordKinds]

theorem keywords_unrecognised_iff
    {text : List Char} :
    (∀ other, (other, .token .identifier) ∈ overlaps →
        other.scan? text = none) ↔
      ¬StartsWithKeyword text := by
  constructor
  · intro unrecognised starts
    obtain ⟨keyword, member, front, back, spelled, append⟩ :=
      startsWithKeyword_iff.mp starts
    obtain ⟨kind, isKeyword, rfl⟩ := mem_keywords_iff.mp member
    have recognised : (token kind).scan? text = some ⟨front, back⟩ := by
      rw [scan?_keyword isKeyword]
      exact keyword_scan?_eq_some_iff.mpr ⟨spelled, append⟩
    have overlap := overlaps_identifier_iff.mpr ⟨kind, isKeyword, rfl⟩
    rw [unrecognised _ overlap] at recognised
    simp at recognised
  · intro noKeyword other overlap
    obtain ⟨kind, isKeyword, rfl⟩ := overlaps_identifier_iff.mp overlap
    rw [scan?_keyword isKeyword]
    exact keyword_scan?_eq_none
      (mem_keywords_iff.mpr ⟨kind, isKeyword, rfl⟩) noKeyword

/-- A comparison of one character is tried after the one that starts with it and
goes on with an equals sign. -/
theorem firstMatch?_single_iff
    (longer : Comparison)
    {shorter : Comparison}
    {first : Char}
    {text : List Char}
    {scan : Scan}
    (longerSpelled : longer.symbol.toList = [first, '='])
    (shorterSpelled : shorter.symbol.toList = [first])
    (overlap : ∀ other, (other, .token (.comparison shorter)) ∈ overlaps ↔
      other = .token (.comparison longer)) :
    standard.firstMatch? text = some (.token (.comparison shorter), scan) ↔
      scan.found = shorter.symbol.toList ∧ StopsRun (· = '=') scan.rest ∧
        scan.found ++ scan.rest = text := by
  simp only [firstMatch?_eq_some_iff_overlaps, overlap, forall_eq, scan?,
    scanToken?, Scan.spelling?_eq_some_iff_eq, longerSpelled, shorterSpelled]
  constructor
  · rintro ⟨⟨found_eq, rfl⟩, unrecognised⟩
    rw [found_eq] at unrecognised
    exact ⟨found_eq, spelling?_pair_eq_none_iff.mp unrecognised, rfl⟩
  · rintro ⟨found_eq, stops, rfl⟩
    refine ⟨⟨found_eq, rfl⟩, ?_⟩
    rw [found_eq]
    exact spelling?_pair_eq_none_iff.mpr stops

/-- A name is divided off unless the text starts with a keyword. -/
theorem firstMatch?_identifier_iff
    {text : List Char}
    {scan : Scan} :
    standard.firstMatch? text = some (.token .identifier, scan) ↔
      (token .identifier).IsPiece scan.found ∧
        StopsRun isWordCharacter scan.rest ∧
        scan.found ++ scan.rest = text := by
  rw [firstMatch?_eq_some_iff_overlaps, keywords_unrecognised_iff]
  constructor
  · rintro ⟨recognised, noKeyword⟩
    obtain ⟨isRun, stops, rfl⟩ := Scan.run?_eq_some_iff_isRun.mp recognised
    exact ⟨⟨isRun, fun starts => noKeyword (starts.append _)⟩, stops, rfl⟩
  · rintro ⟨⟨isRun, noKeyword⟩, stops, rfl⟩
    refine ⟨Scan.run?_eq_some_iff_isRun.mpr ⟨isRun, stops, rfl⟩, ?_⟩
    have letterStops : StopsRun Char.isAlpha scan.rest :=
      stops.mono fun _ isAlpha => isWordCharacter_of_isAlpha isAlpha
    rwa [startsWithKeyword_append_iff letterStops]

/-- The standard rules divide off exactly the pieces that end where they do. -/
theorem firstMatch?_standard_iff
    {text : List Char}
    {lexicalClass : LexicalClass}
    {scan : Scan} :
    standard.firstMatch? text = some (lexicalClass, scan) ↔
      lexicalClass.IsPiece scan.found ∧
        StopsRun (lexicalClass.goesOn scan.found) scan.rest ∧
        scan.found ++ scan.rest = text := by
  have alone
      {lexicalClass : LexicalClass}
      (none : lexicalClass ∉ overlaps.map Prod.snd) :
      standard.firstMatch? text = some (lexicalClass, scan) ↔
        lexicalClass.scan? text = some scan := by
    rw [firstMatch?_eq_some_iff_overlaps, and_iff_left]
    intro other overlap
    exact absurd (List.mem_map_of_mem overlap) none
  have spelled
      {letters : List Char} :
      Scan.spelling? (· = ·) letters text = some scan ↔
        scan.found = letters ∧ StopsRun (fun _ => false) scan.rest ∧
          scan.found ++ scan.rest = text := by
    rw [Scan.spelling?_eq_some_iff_eq,
      and_iff_right (stopsRun_false scan.rest)]
  have keyword
      {letters : List Char} :
      Scan.spelling? sameLetter letters text = some scan ↔
        scan.found.map Char.toUpper = letters ∧
          StopsRun (fun _ => false) scan.rest ∧
          scan.found ++ scan.rest = text := by
    rw [keyword_scan?_eq_some_iff, and_iff_right (stopsRun_false scan.rest)]
  cases lexicalClass with
  | blank => exact (alone (by decide)).trans Scan.run?_eq_some_iff_isRun
  | token kind =>
      cases kind with
      | operator operator =>
          cases operator with
          | not => exact (alone (by decide)).trans keyword
          | binary op =>
              cases op with
              | comparison kind =>
                  cases kind with
                  | lessThan =>
                      exact firstMatch?_single_iff .lessEqual rfl rfl
                        (by simp [overlaps])
                  | greaterThan =>
                      exact firstMatch?_single_iff .greaterEqual rfl rfl
                        (by simp [overlaps])
                  | _ => exact (alone (by decide)).trans spelled
              | and => exact (alone (by decide)).trans keyword
              | or => exact (alone (by decide)).trans keyword
      | identifier => exact firstMatch?_identifier_iff
      | literal => exact (alone (by decide)).trans scanLiteral?_eq_some_iff
      | openParen => exact (alone (by decide)).trans spelled
      | closeParen => exact (alone (by decide)).trans spelled

theorem firstMatch?_piece
    {lexicalClass : LexicalClass}
    {found rest : List Char}
    (isPiece : lexicalClass.IsPiece found)
    (stops : StopsRun (lexicalClass.goesOn found) rest) :
    standard.firstMatch? (found ++ rest) =
      some (lexicalClass, ⟨found, rest⟩) :=
  firstMatch?_standard_iff.mpr ⟨isPiece, stops, rfl⟩

theorem firstMatch?_blank
    {character : Char}
    (text : List Char)
    (blank : isBlank character) :
    standard.firstMatch? (character :: text) =
      some (.blank, ⟨character :: text.takeWhile isBlank,
        text.dropWhile isBlank⟩) := by
  obtain ⟨append, run, stops⟩ := longestRun isBlank text
  apply firstMatch?_standard_iff.mpr
  exact ⟨⟨character, _, rfl, blank, run⟩, stops,
    congrArg (character :: ·) append⟩

end RuleTable

/-! ## Blanks -/

namespace LexicalClass

theorem isBlank_of_isWordCharacter
    {character : Char}
    (inWord : isWordCharacter character) :
    isBlank character = false := by
  rw [Bool.eq_false_iff]
  intro blank
  simp only [isBlank, Bool.or_eq_true, decide_eq_true_eq] at blank
  rcases blank with (((rfl | rfl) | rfl) | rfl) | rfl <;>
    exact absurd inWord (by decide)

theorem isWordCharacter_of_isLower
    {character : Char}
    (isLower : character.isLower) :
    isWordCharacter character :=
  isWordCharacter_of_isAlpha ((Bool.or_eq_true _ _).mpr (Or.inr isLower))

/-- A token goes on with equals signs and the characters of words at most. -/
theorem goesOn_token
    {kind : TokenKind}
    {found : List Char}
    {character : Char}
    (goesOn : (token kind).goesOn found character) :
    character = '=' ∨ isWordCharacter character := by
  have alone (never : false = true) :
      character = '=' ∨ isWordCharacter character :=
    absurd never Bool.false_ne_true
  cases kind with
  | operator operator =>
      cases operator with
      | not => exact alone goesOn
      | binary op =>
          cases op with
          | comparison kind =>
              cases kind with
              | lessThan => exact Or.inl (of_decide_eq_true goesOn)
              | greaterThan => exact Or.inl (of_decide_eq_true goesOn)
              | _ => exact alone goesOn
          | and => exact alone goesOn
          | or => exact alone goesOn
  | identifier => exact Or.inr goesOn
  | literal =>
      simp only [LexicalClass.goesOn] at goesOn
      unfold literalGoesOn at goesOn
      split at goesOn
      · exact alone goesOn
      · exact Or.inr (isWordCharacter_of_isLower goesOn)
      · exact Or.inr goesOn
  | openParen => exact alone goesOn
  | closeParen => exact alone goesOn

/-- A token ends in front of a blank, whatever the token. -/
theorem goesOn_token_of_isBlank
    {character : Char}
    (kind : TokenKind)
    (found : List Char)
    (blank : isBlank character) :
    (token kind).goesOn found character = false := by
  rw [Bool.eq_false_iff]
  intro goesOn
  rcases goesOn_token goesOn with rfl | inWord
  · exact absurd blank (by decide)
  · rw [isBlank_of_isWordCharacter inWord] at blank
    exact Bool.false_ne_true blank

theorem isWordCharacter_of_isRun
    {first : Char → Bool}
    {text : List Char}
    {character : Char}
    (isRun : IsRun first isWordCharacter text)
    (firstInWord : ∀ character, first character → isWordCharacter character)
    (member : character ∈ text) :
    isWordCharacter character := by
  obtain ⟨head, run, rfl, isFirst, inWord⟩ := isRun
  rcases List.mem_cons.mp member with rfl | inRun
  · exact firstInWord character isFirst
  · exact inWord character inRun

/-- A literal does not end with a blank, though it may contain some. -/
theorem isBlank_last_of_literal
    {found : List Char}
    {last : Char}
    (isPiece : (token .literal).IsPiece found)
    (isLast : last ∈ found.getLast?) :
    isBlank last = false := by
  rcases isPiece with isRun | ⟨body, -, rfl⟩ | isPattern
  · refine isBlank_of_isWordCharacter
      (isWordCharacter_of_isRun isRun ?_ (List.mem_of_getLast? isLast))
    intro digit isDigit
    simp [isWordCharacter, Char.isAlphanum, isDigit]
  · rw [List.getLast?_append_of_ne_nil _ (List.cons_ne_nil _ _)] at isLast
    obtain rfl : '"' = last := Option.some.inj isLast
    rfl
  · obtain ⟨-, flagLetters⟩ := isPattern
    rw [List.getLast?_append_of_ne_nil _ (List.cons_ne_nil _ _)] at isLast
    rcases List.mem_cons.mp (List.mem_of_getLast? isLast) with rfl | isFlag
    · rfl
    · exact isBlank_of_isWordCharacter
        (isWordCharacter_of_isLower (flagLetters last isFlag))

theorem isBlank_last_of_token
    {kind : TokenKind}
    {found : List Char}
    {last : Char}
    (isPiece : (token kind).IsPiece found)
    (isLast : last ∈ found.getLast?) :
    isBlank last = false := by
  have member := List.mem_of_getLast? isLast
  have keyword
      {capitals : List Char}
      (isKeyword : capitals ∈ keywords)
      (spelled : found.map Char.toUpper = capitals) :
      isBlank last = false := by
    have inside : last.toUpper ∈ capitals :=
      spelled ▸ List.mem_map_of_mem member
    exact isBlank_of_isWordCharacter (isWordCharacter_of_isAlpha
      (isAlpha_of_toUpper_mem_keyword isKeyword inside))
  cases kind with
  | operator operator =>
      cases operator with
      | not => exact keyword (by decide) isPiece
      | binary op =>
          cases op with
          | comparison kind =>
              have noBlank : kind.symbol.toList.all (!isBlank ·) := by
                cases kind <;> decide
              exact Bool.not_eq_true' _ |>.mp
                (List.all_eq_true.mp noBlank last (isPiece ▸ member))
          | and => exact keyword (by decide) isPiece
          | or => exact keyword (by decide) isPiece
  | identifier =>
      exact isBlank_of_isWordCharacter
        (isWordCharacter_of_isRun isPiece.1
          (fun _ => isWordCharacter_of_isAlpha) member)
  | literal => exact isBlank_last_of_literal isPiece isLast
  | openParen =>
      obtain rfl := isPiece
      obtain rfl := List.mem_singleton.mp member
      rfl
  | closeParen =>
      obtain rfl := isPiece
      obtain rfl := List.mem_singleton.mp member
      rfl

end LexicalClass

/-- A piece is divided off in the same way when the text ends somewhere behind
it. -/
theorem RuleTable.firstMatch?_of_append
    {text found rest later : List Char}
    {lexicalClass : LexicalClass}
    (matched : standard.firstMatch? text =
      some (lexicalClass, ⟨found, rest ++ later⟩)) :
    standard.firstMatch? (found ++ rest) =
      some (lexicalClass, ⟨found, rest⟩) := by
  obtain ⟨isPiece, stops, -⟩ := firstMatch?_standard_iff.mp matched
  exact firstMatch?_piece isPiece stops.of_append

/-- Where no rule matches, blanks at the end of the text change nothing. -/
theorem RuleTable.firstMatch?_append_blanks
    {text blanks : List Char}
    (stuck : standard.firstMatch? text = none)
    (nonempty : text ≠ [])
    (areBlanks : ∀ character ∈ blanks, LexicalClass.isBlank character) :
    standard.firstMatch? (text ++ blanks) = none := by
  rw [Option.eq_none_iff_forall_not_mem]
  rintro ⟨lexicalClass, found, rest⟩ matched
  obtain ⟨isPiece, -, append⟩ := firstMatch?_standard_iff.mp matched
  -- The piece ends within the text, or with one of the blanks.
  rcases List.append_eq_append_iff.mp append with
    ⟨later, rfl, rfl⟩ | ⟨extra, rfl, rfl⟩
  · have matchedInText := firstMatch?_of_append matched
    rw [stuck] at matchedInText
    exact absurd matchedInText (Option.some_ne_none _).symm
  · cases lexicalClass with
    | blank =>
        obtain ⟨character, run, text_eq, isBlank, -⟩ := isPiece
        obtain ⟨tail, rfl, -⟩ :=
          (List.append_eq_cons_iff.mp text_eq).resolve_left
            fun empty => nonempty empty.1
        rw [firstMatch?_blank tail isBlank] at stuck
        exact absurd stuck (Option.some_ne_none _)
    | token kind =>
        have extra_eq : extra = [] := by
          by_contra more
          have isLast : extra.getLast more ∈ (text ++ extra).getLast? := by
            rw [List.getLast?_append_of_ne_nil text more]
            exact List.getLast?_eq_some_getLast more
          have blank := areBlanks (extra.getLast more)
            (List.mem_append_left rest (List.getLast_mem more))
          rw [LexicalClass.isBlank_last_of_token isPiece isLast] at blank
          exact Bool.false_ne_true blank
        rw [extra_eq, List.append_nil] at isPiece
        have matchedInText := firstMatch?_piece isPiece (stopsRun_nil _)
        rw [List.append_nil, stuck] at matchedInText
        exact absurd matchedInText (Option.some_ne_none _).symm

namespace Cursor

open RuleTable

/-- A blank in front of a text moves the next token, and nothing else. -/
theorem nextToken_blank_cons
    {character : Char}
    (offset : Nat)
    (text : List Char)
    (blank : LexicalClass.isBlank character) :
    nextToken standard ⟨offset, character :: text⟩ =
      nextToken standard ⟨offset + character.utf8Size, text⟩ := by
  have skipped {offset : Nat} {character : Char} {text : List Char}
      (blank : LexicalClass.isBlank character) :
      nextToken standard ⟨offset, character :: text⟩ =
        nextToken standard
          ⟨offset + (character.utf8Size +
              byteLength (text.takeWhile LexicalClass.isBlank)),
            text.dropWhile LexicalClass.isBlank⟩ := by
    have matched := firstMatch?_blank text blank
    exact @nextToken_of_blank standard ⟨offset, character :: text⟩ _
      matched
  -- The blank belongs to a run that is skipped at once, as is what the run
  -- leaves without it.
  rw [skipped blank]
  cases text with
  | nil => rfl
  | cons next text =>
      by_cases nextBlank : LexicalClass.isBlank next
      · rw [skipped nextBlank]
        simp only [nextBlank, List.takeWhile_cons_of_pos,
          List.dropWhile_cons_of_pos, byteLength, List.foldr_cons,
          Nat.add_assoc]
      · simp [nextBlank, byteLength]

/-- A blank in front of a text makes no token. -/
theorem tokens_blank_cons
    {character : Char}
    (offset : Nat)
    (text : List Char)
    (blank : LexicalClass.isBlank character) :
    tokens standard ⟨offset, character :: text⟩ =
      tokens standard ⟨offset + character.utf8Size, text⟩ := by
  rw [tokens_eq, nextToken_blank_cons offset text blank, ← tokens_eq]

theorem tokens_blanks_append
    {blanks : List Char}
    (areBlanks : ∀ character ∈ blanks, LexicalClass.isBlank character)
    (offset : Nat)
    (text : List Char) :
    tokens standard ⟨offset, blanks ++ text⟩ =
      tokens standard ⟨offset + byteLength blanks, text⟩ := by
  induction blanks generalizing offset with
  | nil => rfl
  | cons character blanks hypothesis =>
      rw [List.forall_mem_cons] at areBlanks
      rw [List.cons_append, tokens_blank_cons offset _ areBlanks.1,
        hypothesis areBlanks.2, byteLength_cons, Nat.add_assoc]

end Cursor
end FilterLang
