import FilterLang.Expr.Source
import FilterLang.Text.Ascii

/-!
# What the standard rules divide off

A class recognises nothing unless the text starts with one of the characters of
the class, so the first character mostly decides which rule applies. Only the
keywords and the names share their first characters.
-/

namespace FilterLang

namespace LexicalClass

/-- The characters that a piece of a class can start with. -/
def starts : LexicalClass → Char → Bool
  | blank => isBlank
  | token (.operator (.binary (.comparison kind))) =>
      fun character => kind.symbol.toList.head?.any (· = character)
  | token (.operator operator) =>
      fun character => operator.name.toList.head?.any (sameLetter · character)
  | token .identifier => Char.isAlpha
  | token .literal =>
      fun character =>
        character.isDigit || character = '"' || character = '/'
  | token .openParen => fun character => '(' = character
  | token .closeParen => fun character => ')' = character

theorem spelling?_eq_none_of_head
    {same : Char → Char → Bool}
    {letters : List Char}
    {character : Char}
    (text : List Char)
    (nonempty : letters ≠ [])
    (noStart : letters.head?.any (same · character) = false) :
    Scan.spelling? same letters (character :: text) = none := by
  cases letters with
  | nil => exact absurd rfl nonempty
  | cons letter letters =>
      have differs : same letter character = false := by simpa using noStart
      simp [Scan.spelling?, differs]

theorem scan?_eq_none_of_starts
    {lexicalClass : LexicalClass}
    {character : Char}
    (text : List Char)
    (noStart : lexicalClass.starts character = false) :
    lexicalClass.scan? (character :: text) = none := by
  cases lexicalClass with
  | blank => simpa [starts, scan?, Scan.run?] using noStart
  | token kind =>
      cases kind with
      | operator operator =>
          cases operator with
          | not => exact spelling?_eq_none_of_head text (by decide) noStart
          | binary op =>
              cases op with
              | comparison kind =>
                  exact spelling?_eq_none_of_head text
                    (by cases kind <;> decide) noStart
              | and => exact spelling?_eq_none_of_head text (by decide) noStart
              | or => exact spelling?_eq_none_of_head text (by decide) noStart
      | identifier =>
          simpa [starts, scan?, scanToken?, Scan.run?] using noStart
      | literal =>
          simp only [starts, Bool.or_eq_false_iff, decide_eq_false_iff_not]
            at noStart
          obtain ⟨⟨notDigit, notQuote⟩, notSlash⟩ := noStart
          simp [scan?, scanToken?, scanLiteral?, Scan.run?, Scan.enclosed?,
            notDigit, notQuote, notSlash]
      | openParen =>
          exact spelling?_eq_none_of_head text (List.cons_ne_nil '(' [])
            (by simpa [starts] using noStart)
      | closeParen =>
          exact spelling?_eq_none_of_head text (List.cons_ne_nil ')' [])
            (by simpa [starts] using noStart)

end LexicalClass

/-! ## Keywords and names -/

/-- The kinds of tokens that are written by keywords. -/
def keywordKinds : List TokenKind :=
  [.and, .or, .not]

theorem mem_keywords_iff
    {keyword : List Char} :
    keyword ∈ keywords ↔ ∃ kind ∈ keywordKinds, kind.name.toList = keyword := by
  have named :
      keywords = keywordKinds.map fun kind => kind.name.toList := by
    decide
  rw [named, List.mem_map]

theorem scan?_keyword
    {kind : TokenKind}
    (isKeyword : kind ∈ keywordKinds)
    (text : List Char) :
    (LexicalClass.token kind).scan? text =
      Scan.spelling? LexicalClass.sameLetter kind.name.toList text := by
  simp only [keywordKinds, List.mem_cons, List.not_mem_nil, or_false]
    at isKeyword
  rcases isKeyword with rfl | rfl | rfl <;> rfl

theorem keyword_scan?_eq_some_iff
    {keyword text : List Char}
    {scan : Scan} :
    Scan.spelling? LexicalClass.sameLetter keyword text = some scan ↔
      scan.found.map Char.toUpper = keyword ∧ scan.found ++ scan.rest = text :=
  Scan.spelling?_eq_some_iff fun _ _ => rfl

theorem startsWithKeyword_iff
    {text : List Char} :
    StartsWithKeyword text ↔
      ∃ keyword ∈ keywords, ∃ front back,
        front.map Char.toUpper = keyword ∧ front ++ back = text := by
  constructor
  · rintro ⟨keyword, member, spelled⟩
    exact ⟨keyword, member, _, _, spelled,
      List.take_append_drop keyword.length text⟩
  · rintro ⟨keyword, member, front, back, rfl, rfl⟩
    refine ⟨_, member, ?_⟩
    rw [List.length_map, List.take_left]

theorem StartsWithKeyword.append
    {text : List Char}
    (starts : StartsWithKeyword text)
    (later : List Char) :
    StartsWithKeyword (text ++ later) := by
  obtain ⟨keyword, member, front, back, spelled, rfl⟩ :=
    startsWithKeyword_iff.mp starts
  exact startsWithKeyword_iff.mpr
    ⟨keyword, member, front, back ++ later, spelled,
      (List.append_assoc _ _ _).symm⟩

/-- The letters of keywords are letters, in either case. -/
theorem isAlpha_of_toUpper_mem_keyword
    {keyword : List Char}
    {character : Char}
    (member : keyword ∈ keywords)
    (inside : character.toUpper ∈ keyword) :
    character.isAlpha := by
  have asciiLetters :
      keywords.all fun keyword => keyword.all (·.toNat < 128) := by
    decide
  have ascii : character.toUpper.toNat < 128 :=
    of_decide_eq_true
      (List.all_eq_true.mp (List.all_eq_true.mp asciiLetters keyword member)
        _ inside)
  have checked :
      ∀ keyword ∈ keywords, character.toUpper ∈ keyword → character.isAlpha :=
    of_ascii
      (fun character => ∀ keyword ∈ keywords,
        character.toUpper ∈ keyword → character.isAlpha)
      (by decide +kernel)
      (ascii_of_toUpper ascii)
  exact checked keyword member inside

/-- No keyword extends beyond a character that is not a letter. -/
theorem startsWithKeyword_append_iff
    {text later : List Char}
    (stops : StopsRun Char.isAlpha later) :
    StartsWithKeyword (text ++ later) ↔ StartsWithKeyword text := by
  refine ⟨?_, fun starts => starts.append later⟩
  intro starts
  obtain ⟨keyword, member, front, back, spelled, append⟩ :=
    startsWithKeyword_iff.mp starts
  rcases List.append_eq_append_iff.mp append with
    ⟨rest, rfl, -⟩ | ⟨extra, rfl, rfl⟩
  · exact startsWithKeyword_iff.mpr
      ⟨keyword, member, front, rest, spelled, rfl⟩
  · cases extra with
    | nil =>
        rw [List.append_nil] at spelled
        exact startsWithKeyword_iff.mpr
          ⟨keyword, member, text, [], spelled, List.append_nil text⟩
    | cons character extra =>
        have inside : character.toUpper ∈ keyword := by
          rw [← spelled]
          exact List.mem_map_of_mem (by simp)
        have isLetter := isAlpha_of_toUpper_mem_keyword member inside
        rw [stops character rfl] at isLetter
        exact absurd isLetter Bool.false_ne_true

namespace RuleTable

open LexicalClass

theorem keyword_scan?_eq_none
    {keyword text : List Char}
    (member : keyword ∈ keywords)
    (noKeyword : ¬StartsWithKeyword text) :
    Scan.spelling? sameLetter keyword text = none := by
  cases recognised : Scan.spelling? sameLetter keyword text with
  | none => rfl
  | some scan =>
      obtain ⟨spelled, append⟩ := keyword_scan?_eq_some_iff.mp recognised
      exact absurd
        (startsWithKeyword_iff.mpr ⟨keyword, member, _, _, spelled, append⟩)
        noKeyword

end RuleTable
end FilterLang
