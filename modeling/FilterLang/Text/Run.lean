/-!
# Runs of characters

The longest run of characters of one class at the front of a text is the part
of such characters that is followed by another character, or by nothing.
-/

namespace FilterLang

/-- A text does not start with a character of a class. -/
def StopsRun
    (inClass : Char → Bool)
    (text : List Char) : Prop :=
  ∀ character ∈ text.head?, inClass character = false

theorem stopsRun_nil (inClass : Char → Bool) : StopsRun inClass [] := by
  intro character absent
  simp at absent

theorem StopsRun.mono
    {smaller larger : Char → Bool}
    {text : List Char}
    (stops : StopsRun larger text)
    (implies : ∀ character, smaller character → larger character) :
    StopsRun smaller text := by
  intro character first
  have outside := stops character first
  cases inside : smaller character with
  | false => rfl
  | true =>
      rw [implies character inside] at outside
      exact absurd outside Bool.true_eq_false.mp

theorem StopsRun.append
    {inClass : Char → Bool}
    {front back : List Char}
    (frontStops : StopsRun inClass front)
    (backStops : StopsRun inClass back) :
    StopsRun inClass (front ++ back) := by
  cases front with
  | nil => exact backStops
  | cons character front => exact frontStops

theorem StopsRun.of_append
    {inClass : Char → Bool}
    {front back : List Char}
    (stops : StopsRun inClass (front ++ back)) :
    StopsRun inClass front := by
  cases front with
  | nil => exact stopsRun_nil inClass
  | cons character front => exact stops

/-- A text divides into the longest run of characters of a class and the rest. -/
theorem longestRun_iff
    {inClass : Char → Bool}
    {text run rest : List Char} :
    text.takeWhile inClass = run ∧ text.dropWhile inClass = rest ↔
      run ++ rest = text ∧ (∀ character ∈ run, inClass character) ∧
        StopsRun inClass rest := by
  constructor
  · rintro ⟨rfl, rfl⟩
    refine ⟨List.takeWhile_append_dropWhile, ?_, ?_⟩
    · exact List.all_eq_true.mp List.all_takeWhile
    · intro character first
      have stopped := List.head?_dropWhile_not inClass text
      rw [Option.mem_def.mp first] at stopped
      simpa using stopped
  · rintro ⟨rfl, runInClass, stops⟩
    rw [List.takeWhile_append_of_pos runInClass,
      List.dropWhile_append_of_pos runInClass]
    cases rest with
    | nil => simp
    | cons character rest =>
        have outside : inClass character = false := stops character rfl
        simp [outside]

theorem longestRun
    (inClass : Char → Bool)
    (text : List Char) :
    text.takeWhile inClass ++ text.dropWhile inClass = text ∧
      (∀ character ∈ text.takeWhile inClass, inClass character) ∧
        StopsRun inClass (text.dropWhile inClass) :=
  longestRun_iff.mp ⟨rfl, rfl⟩

end FilterLang
