import FilterLang.Text.Run

/-!
# Scanning the front of a text

Each scan splits a text into a part that it recognises and the rest. The main
statements say that nothing is lost and that the recognised part is not empty,
which is why repeated scanning ends.
-/

namespace FilterLang

/-- A part recognised at the front of a text, and the rest of the text. -/
structure Scan where
  /-- The recognised part. -/
  found : List Char
  /-- The text behind it. -/
  rest : List Char
  deriving DecidableEq

namespace Scan

/-- A scan divides a text when its parts make up the text and the recognised
part is not empty. -/
structure Divides (scan : Scan) (text : List Char) : Prop where
  /-- The two parts make up the text. -/
  append : scan.found ++ scan.rest = text
  /-- Something is recognised. -/
  nonempty : scan.found ≠ []

theorem Divides.length_rest_lt
    {scan : Scan}
    {text : List Char}
    (divides : scan.Divides text) :
    scan.rest.length < text.length := by
  have foundPositive := List.length_pos_iff.mpr divides.nonempty
  have lengths := congrArg List.length divides.append
  rw [List.length_append] at lengths
  omega

/-- Recognise a spelling letter by letter, each letter up to `same`. -/
def spelling?
    (same : Char → Char → Bool) : List Char → List Char → Option Scan
  | [], text => some ⟨[], text⟩
  | _ :: _, [] => none
  | letter :: letters, character :: text =>
      if same letter character then
        (spelling? same letters text).map fun scan =>
          ⟨character :: scan.found, scan.rest⟩
      else
        none

/-- Recognise a character of one class and all characters of another class that
follow it. -/
def run?
    (first later : Char → Bool) : List Char → Option Scan
  | [] => none
  | character :: text =>
      if first character then
        some ⟨character :: text.takeWhile later, text.dropWhile later⟩
      else
        none

/-- Recognise the text from one delimiter to the next. -/
def enclosed?
    (delimiter : Char) : List Char → Option Scan
  | [] => none
  | character :: text =>
      if character = delimiter then
        match text.dropWhile (· != delimiter) with
        | [] => none
        | closing :: rest =>
            some ⟨character :: text.takeWhile (· != delimiter) ++ [closing], rest⟩
      else
        none

/-- Let a recognised part take in all characters of a class that follow it. -/
def extend
    (later : Char → Bool)
    (scan : Scan) : Scan :=
  ⟨scan.found ++ scan.rest.takeWhile later, scan.rest.dropWhile later⟩

/-- What is recognised up to `shape` is a text of the given spelling. -/
theorem spelling?_eq_some_iff
    {same : Char → Char → Bool}
    {shape : Char → Char}
    {letters text : List Char}
    {scan : Scan}
    (sameShape : ∀ letter character,
      same letter character = decide (letter = shape character)) :
    spelling? same letters text = some scan ↔
      scan.found.map shape = letters ∧ scan.found ++ scan.rest = text := by
  induction letters generalizing text scan with
  | nil =>
      rw [spelling?, Option.some.injEq, List.map_eq_nil_iff]
      constructor
      · rintro rfl
        simp
      · rintro ⟨nothingFound, rfl⟩
        cases scan
        simp_all
  | cons letter letters hypothesis =>
      cases text with
      | nil =>
          simp only [spelling?, reduceCtorEq, false_iff]
          rintro ⟨spelled, append⟩
          simp [(List.append_eq_nil_iff.mp append).1] at spelled
      | cons character text =>
          simp only [spelling?, sameShape, decide_eq_true_eq]
          split
          · rename_i agrees
            simp only [Option.map_eq_some_iff, hypothesis]
            constructor
            · rintro ⟨inner, ⟨spelled, append⟩, rfl⟩
              simp [spelled, append, agrees]
            · rintro ⟨spelled, append⟩
              obtain ⟨first, later, found_eq, rfl, spelledLater⟩ :=
                List.map_eq_cons_iff.mp spelled
              rw [found_eq, List.cons_append, List.cons.injEq] at append
              obtain ⟨rfl, append⟩ := append
              refine ⟨⟨later, scan.rest⟩, ⟨spelledLater, append⟩, ?_⟩
              rw [← found_eq]
          · rename_i differs
            simp only [reduceCtorEq, false_iff]
            rintro ⟨spelled, append⟩
            obtain ⟨first, later, found_eq, shaped, -⟩ :=
              List.map_eq_cons_iff.mp spelled
            rw [found_eq, List.cons_append, List.cons.injEq] at append
            exact differs (by rw [← append.1, shaped])

theorem run?_eq_some_iff
    {first later : Char → Bool}
    {text : List Char}
    {scan : Scan} :
    run? first later text = some scan ↔
      ∃ character run, scan.found = character :: run ∧ first character ∧
        (∀ other ∈ run, later other) ∧ StopsRun later scan.rest ∧
          scan.found ++ scan.rest = text := by
  constructor
  · intro recognised
    cases text with
    | nil => simp [run?] at recognised
    | cons character text =>
        simp only [run?] at recognised
        split at recognised
        · rename_i isFirst
          simp only [Option.some.injEq] at recognised
          subst recognised
          obtain ⟨append, runLater, stops⟩ := longestRun later text
          refine ⟨character, _, rfl, isFirst, runLater, stops, ?_⟩
          rw [List.cons_append, append]
        · simp at recognised
  · rintro ⟨character, run, found_eq, isFirst, runLater, stops, rfl⟩
    obtain ⟨found, rest⟩ := scan
    simp only at found_eq stops
    subst found_eq
    obtain ⟨taken, dropped⟩ := longestRun_iff.mpr ⟨rfl, runLater, stops⟩
    rw [List.cons_append, run?, if_pos isFirst, taken, dropped]

theorem enclosed?_eq_some_iff
    {delimiter : Char}
    {text : List Char}
    {scan : Scan} :
    enclosed? delimiter text = some scan ↔
      ∃ body, delimiter ∉ body ∧ scan.found = delimiter :: body ++ [delimiter] ∧
        scan.found ++ scan.rest = text := by
  constructor
  · intro recognised
    cases text with
    | nil => simp [enclosed?] at recognised
    | cons character text =>
        obtain ⟨append, bodyInside, stops⟩ :=
          longestRun (· != delimiter) text
        simp only [enclosed?] at recognised
        split at recognised
        · rename_i isDelimiter
          split at recognised
          · simp at recognised
          · rename_i closing rest remaining
            simp only [Option.some.injEq] at recognised
            subst recognised isDelimiter
            have isClosing : closing = character := by
              simpa using stops closing (by rw [remaining]; rfl)
            subst isClosing
            refine ⟨_, ?_, rfl, ?_⟩
            · intro member
              simpa using bodyInside closing member
            · rw [remaining] at append
              simpa using append
        · simp at recognised
  · rintro ⟨body, notInside, found_eq, rfl⟩
    obtain ⟨found, rest⟩ := scan
    simp only at found_eq
    subst found_eq
    have bodyInside : ∀ character ∈ body, (character != delimiter) = true := by
      intro character member
      simp only [bne_iff_ne]
      rintro rfl
      exact notInside member
    have stops : StopsRun (· != delimiter) (delimiter :: rest) := by
      simp [StopsRun]
    obtain ⟨taken, dropped⟩ := longestRun_iff.mpr ⟨rfl, bodyInside, stops⟩
    rw [List.append_assoc, List.cons_append, List.singleton_append, enclosed?,
      if_pos rfl, taken, dropped]

theorem append_of_spelling?
    {same : Char → Char → Bool}
    {letters text : List Char}
    {scan : Scan}
    (recognised : spelling? same letters text = some scan) :
    scan.found ++ scan.rest = text ∧ scan.found.length = letters.length := by
  induction letters generalizing text scan with
  | nil =>
      simp only [spelling?, Option.some.injEq] at recognised
      subst recognised
      simp
  | cons letter letters hypothesis =>
      cases text with
      | nil => simp [spelling?] at recognised
      | cons character text =>
          simp only [spelling?] at recognised
          split at recognised
          · obtain ⟨inner, innerRecognised, rfl⟩ :=
              Option.map_eq_some_iff.mp recognised
            obtain ⟨append, length⟩ := hypothesis innerRecognised
            simp [append, length]
          · simp at recognised

theorem divides_of_spelling?
    {same : Char → Char → Bool}
    {letters text : List Char}
    {scan : Scan}
    (lettersNonempty : letters ≠ [])
    (recognised : spelling? same letters text = some scan) :
    scan.Divides text := by
  obtain ⟨append, length⟩ := append_of_spelling? recognised
  refine ⟨append, ?_⟩
  have lettersPositive := List.length_pos_iff.mpr lettersNonempty
  exact List.length_pos_iff.mp (by omega)

theorem divides_of_run?
    {first later : Char → Bool}
    {text : List Char}
    {scan : Scan}
    (recognised : run? first later text = some scan) :
    scan.Divides text := by
  obtain ⟨character, run, found_eq, -, -, -, append⟩ :=
    run?_eq_some_iff.mp recognised
  refine ⟨append, ?_⟩
  rw [found_eq]
  exact List.cons_ne_nil _ _

theorem divides_of_enclosed?
    {delimiter : Char}
    {text : List Char}
    {scan : Scan}
    (recognised : enclosed? delimiter text = some scan) :
    scan.Divides text := by
  obtain ⟨body, -, found_eq, append⟩ := enclosed?_eq_some_iff.mp recognised
  refine ⟨append, ?_⟩
  rw [found_eq]
  exact List.cons_ne_nil _ _

theorem Divides.extend
    {scan : Scan}
    {text : List Char}
    (divides : scan.Divides text)
    (later : Char → Bool) :
    (scan.extend later).Divides text :=
  ⟨by simp [Scan.extend, divides.append],
    by simp [Scan.extend, divides.nonempty]⟩

end Scan
end FilterLang
