import FilterLang.Proofs.CanonicalRoundTrip

/-!
# Literals in a printed text

A printed text is marks, blanks and literals. A literal stands between double
quotes, and a backslash in it takes the next character with it, so the first
quote that no backslash takes is the closing one. Scanning tells of every
character whether it belongs to a literal; what is erased or counted outside
literals is read off the scan.

A text is closed when no literal goes on behind it. Scans of closed texts are
put together piece by piece.
-/

namespace FilterLang

/-- Where a scan stands. -/
inductive ScanState
  /-- Between literals. -/
  | outside
  /-- In a literal. -/
  | inside
  /-- In a literal, behind a backslash. -/
  | escaped
  deriving DecidableEq

/-- A character, and whether it belongs to a literal. -/
structure Scanned where
  /-- The character. -/
  character : Char
  /-- Whether it belongs to a literal; its quotes do. -/
  inLiteral : Bool
  deriving DecidableEq

namespace ScanState

/-- The state behind a character. -/
def step : ScanState → Char → ScanState
  | outside, character => if character = '"' then inside else outside
  | inside, character =>
      if character = '"' then
        outside
      else if character = '\\' then
        escaped
      else
        inside
  | escaped, _ => inside

/-- Scan a text. -/
def scan : ScanState → List Char → List Scanned
  | _, [] => []
  | state, character :: rest =>
      ⟨character, state ≠ outside ∨ character = '"'⟩ ::
        scan (state.step character) rest

end ScanState

/-- Scan a text from between literals. -/
def scan (text : List Char) : List Scanned :=
  ScanState.outside.scan text

@[simp] theorem scan_nil : scan [] = [] := rfl

theorem scan_cons
    {character : Char}
    (notQuote : character ≠ '"')
    (rest : List Char) :
    scan (character :: rest) = ⟨character, false⟩ :: scan rest := by
  simp [scan, ScanState.scan, ScanState.step, notQuote]

theorem ScanState.map_character_scan
    (state : ScanState)
    (text : List Char) :
    (state.scan text).map Scanned.character = text := by
  induction text generalizing state with
  | nil => rfl
  | cons character rest hypothesis =>
      rw [ScanState.scan, List.map_cons, hypothesis]

theorem map_character_scan (text : List Char) :
    (scan text).map Scanned.character = text :=
  ScanState.outside.map_character_scan text

/-! ## Literals -/

/-- What may stand between the quotes of a literal. -/
inductive IsLiteralBody : List Char → Prop
  | nil : IsLiteralBody []
  | plain
      {character : Char}
      {later : List Char}
      (notQuote : character ≠ '"')
      (notBackslash : character ≠ '\\')
      (laterBody : IsLiteralBody later) :
      IsLiteralBody (character :: later)
  | escape
      {later : List Char}
      (character : Char)
      (laterBody : IsLiteralBody later) :
      IsLiteralBody ('\\' :: character :: later)

namespace IsLiteralBody

theorem append
    {front back : List Char}
    (frontBody : IsLiteralBody front)
    (backBody : IsLiteralBody back) :
    IsLiteralBody (front ++ back) := by
  induction frontBody with
  | nil => exact backBody
  | plain notQuote notBackslash _ hypothesis =>
      exact .plain notQuote notBackslash hypothesis
  | escape character _ hypothesis => exact .escape character hypothesis

theorem of_plain
    {text : List Char}
    (noQuote : '"' ∉ text)
    (noBackslash : '\\' ∉ text) :
    IsLiteralBody text := by
  induction text with
  | nil => exact .nil
  | cons character later hypothesis =>
      rw [List.mem_cons, not_or] at noQuote noBackslash
      exact .plain (Ne.symm noQuote.1) (Ne.symm noBackslash.1)
        (hypothesis noQuote.2 noBackslash.2)

theorem flatMap
    {escape : Char → List Char}
    (body : ∀ character, IsLiteralBody (escape character))
    (text : List Char) :
    IsLiteralBody (text.flatMap escape) := by
  induction text with
  | nil => exact .nil
  | cons character later hypothesis =>
      rw [List.flatMap_cons]
      exact (body character).append hypothesis

/-- A scan passes through what a literal holds up to its closing quote. -/
theorem scan_inside
    {body : List Char}
    (isBody : IsLiteralBody body)
    (rest : List Char) :
    ScanState.inside.scan (body ++ '"' :: rest) =
      (body ++ ['"']).map (⟨·, true⟩) ++ FilterLang.scan rest := by
  induction isBody with
  | nil => simp [FilterLang.scan, ScanState.scan, ScanState.step]
  | plain notQuote notBackslash _ hypothesis =>
      simp [ScanState.scan, ScanState.step, notQuote, notBackslash,
        hypothesis]
  | escape character _ hypothesis =>
      simp [ScanState.scan, ScanState.step, hypothesis]

end IsLiteralBody

/-- A literal with its quotes. -/
def IsLiteral (text : List Char) : Prop :=
  ∃ body, IsLiteralBody body ∧ text = '"' :: body ++ ['"']

theorem IsLiteral.scan_append
    {literal : List Char}
    (isLiteral : IsLiteral literal)
    (rest : List Char) :
    scan (literal ++ rest) = literal.map (⟨·, true⟩) ++ scan rest := by
  obtain ⟨body, isBody, rfl⟩ := isLiteral
  simpa [scan, ScanState.scan, ScanState.step] using isBody.scan_inside rest

theorem IsLiteral.scan_eq
    {literal : List Char}
    (isLiteral : IsLiteral literal) :
    scan literal = literal.map (⟨·, true⟩) := by
  simpa using isLiteral.scan_append []

/-- No literal starts where there is no quote. -/
theorem scan_plain_append
    {text : List Char}
    (plain : '"' ∉ text)
    (rest : List Char) :
    scan (text ++ rest) = text.map (⟨·, false⟩) ++ scan rest := by
  induction text with
  | nil => rfl
  | cons character later hypothesis =>
      rw [List.mem_cons, not_or] at plain
      obtain ⟨notQuote, laterPlain⟩ := plain
      rw [List.cons_append, scan_cons (Ne.symm notQuote),
        hypothesis laterPlain]
      rfl

theorem scan_plain
    {text : List Char}
    (plain : '"' ∉ text) :
    scan text = text.map (⟨·, false⟩) := by
  simpa using scan_plain_append plain []

/-! ## Closed texts -/

/-- No literal goes on behind a text. -/
def IsClosed (text : List Char) : Prop :=
  ∀ rest, scan (text ++ rest) = scan text ++ scan rest

namespace IsClosed

theorem nil : IsClosed [] := by
  intro rest
  rfl

theorem append
    {front back : List Char}
    (frontClosed : IsClosed front)
    (backClosed : IsClosed back) :
    IsClosed (front ++ back) := by
  intro rest
  rw [List.append_assoc, frontClosed, backClosed, frontClosed,
    List.append_assoc]

theorem literal
    {text : List Char}
    (isLiteral : IsLiteral text) :
    IsClosed text := by
  intro rest
  rw [isLiteral.scan_append, isLiteral.scan_eq]

theorem plain
    {text : List Char}
    (plain : '"' ∉ text) :
    IsClosed text := by
  intro rest
  rw [scan_plain_append plain, scan_plain plain]

end IsClosed

/-! ## Erasing -/

/-- A text without those characters outside its literals that are erased. -/
def eraseOutside
    (erased : Char → Bool)
    (text : List Char) : List Char :=
  ((scan text).filter fun scanned =>
    scanned.inLiteral || !erased scanned.character).map Scanned.character

/-- A closed text and what erasing leaves of it. -/
structure Erases
    (erased : Char → Bool)
    (text left : List Char) : Prop where
  /-- The text is closed. -/
  closed : IsClosed text
  /-- The rest is left. -/
  erase_eq : eraseOutside erased text = left

namespace Erases

variable {erased : Char → Bool}

theorem nil : Erases erased [] [] :=
  ⟨.nil, rfl⟩

theorem append
    {front back frontLeft backLeft : List Char}
    (frontErases : Erases erased front frontLeft)
    (backErases : Erases erased back backLeft) :
    Erases erased (front ++ back) (frontLeft ++ backLeft) where
  closed := frontErases.closed.append backErases.closed
  erase_eq := by
    rw [← frontErases.erase_eq, ← backErases.erase_eq]
    simp [eraseOutside, frontErases.closed back]

/-- Nothing of a literal is erased. -/
theorem literal
    {text : List Char}
    (isLiteral : IsLiteral text) :
    Erases erased text text where
  closed := .literal isLiteral
  erase_eq := by
    simp [eraseOutside, isLiteral.scan_eq, List.filter_map,
      Function.comp_def]

/-- What is erased between literals is told by the characters alone. -/
theorem plain
    {text : List Char}
    (plain : '"' ∉ text) :
    Erases erased text (text.filter (!erased ·)) where
  closed := .plain plain
  erase_eq := by
    simp [eraseOutside, scan_plain plain, List.filter_map, Function.comp_def]

theorem kept
    {text : List Char}
    (noQuote : '"' ∉ text)
    (noneErased : ∀ character ∈ text, ¬erased character) :
    Erases erased text text := by
  have erases : Erases erased text (text.filter (!erased ·)) := plain noQuote
  rwa [List.filter_eq_self.mpr (by simpa using noneErased)] at erases

theorem blank
    {text : List Char}
    (noQuote : '"' ∉ text)
    (allErased : ∀ character ∈ text, erased character) :
    Erases erased text [] := by
  have erases : Erases erased text (text.filter (!erased ·)) := plain noQuote
  rwa [List.filter_eq_nil_iff.mpr (by simpa using allErased)] at erases

theorem flatMap
    {α β : Type}
    {related : α → β → Prop}
    {write : α → List Char}
    {leave : β → List Char}
    {items : List α}
    {lefts : List β}
    (each : ∀ item left, related item left →
      Erases erased (write item) (leave left))
    (allRelated : List.Forall₂ related items lefts) :
    Erases erased (items.flatMap write) (lefts.flatMap leave) := by
  induction allRelated with
  | nil => exact .nil
  | cons first _ hypothesis =>
      simp only [List.flatMap_cons]
      exact (each _ _ first).append hypothesis

end Erases

/-! ## Quoted texts are literals -/

namespace Canonical

theorem WritesNumber.isLiteralBody
    {digits : List Char}
    {number : Nat}
    (written : WritesNumber digits number) :
    IsLiteralBody digits :=
  .of_plain (written.notMem (by decide)) (written.notMem (by decide))

theorem WritesItem.isLiteralBody
    {item : List Char}
    {character : Char}
    (writes : WritesItem item character) :
    IsLiteralBody item := by
  have brace : IsLiteralBody ['}'] := .plain (by decide) (by decide) .nil
  cases writes with
  | plain notQuote notBackslash => exact .plain notQuote notBackslash .nil
  | escape named => exact .escape _ .nil
  | codePoint written =>
      exact .escape 'u'
        (.plain (by decide) (by decide) (written.isLiteralBody.append brace))
  | signedCodePoint written =>
      exact .escape 'u' (.plain (by decide) (by decide)
        (.plain (by decide) (by decide) (written.isLiteralBody.append brace)))

end Canonical

theorem Quoted.isLiteral_encode
    (hidden : Char → Bool)
    (text : List Char) :
    IsLiteral (encode hidden text) :=
  ⟨_, .flatMap (fun character =>
    (Canonical.writesItem_escape hidden character).isLiteralBody) text, rfl⟩

/-- The control characters with an escape of their own are in no quoted text. -/
theorem Quoted.notMem_encode
    {mark : Char}
    (escaped : mark ∈ ['\x00', '\t', '\n', '\r'])
    (hidden : Char → Bool)
    (text : List Char) :
    mark ∉ encode hidden text := by
  simp only [List.mem_cons, List.not_mem_nil, or_false] at escaped
  have notWritten :
      Numeral.digitValue? 16 mark = none ∧
        mark ∉ ['\\', '"', '0', 't', 'n', 'r', 'u', '{', '}'] := by
    rcases escaped with rfl | rfl | rfl | rfl <;> decide
  obtain ⟨noDigit, noLetter⟩ := notWritten
  have avoids {letters : List Char}
      (known : letters ⊆ ['\\', '"', '0', 't', 'n', 'r', 'u', '{', '}']) :
      mark ∉ letters :=
    fun member => noLetter (known member)
  have absent (character : Char) : mark ∉ escape hidden character := by
    unfold escape
    split
    · exact avoids (by decide)
    · exact avoids (by decide)
    · exact avoids (by decide)
    · exact avoids (by decide)
    · exact avoids (by decide)
    · exact avoids (by decide)
    · rename_i notNul notTab notLineFeed notReturn
      split
      · have digits :=
          (Canonical.writesNumber_hexDigits character.toNat).notMem noDigit
        rw [byCodePoint, List.mem_append, List.mem_append]
        rintro ((opening | inDigits) | closing)
        · exact avoids (by decide) opening
        · exact digits inDigits
        · exact avoids (by decide) closing
      · intro member
        obtain rfl := List.mem_singleton.mp member
        rcases escaped with isNul | isTab | isLineFeed | isReturn
        · exact notNul isNul
        · exact notTab isTab
        · exact notLineFeed isLineFeed
        · exact notReturn isReturn
  have noQuote : mark ≠ '"' := by
    rintro rfl
    exact noLetter (by decide)
  simp [encode, absent, noQuote]

end FilterLang
