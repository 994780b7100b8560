import FilterLang.Text.Run

/-!
# Places in a text that is being read

Reading keeps to a place: the text that is still to come, and the position of
its first character. An error says what is wrong and at which position. No
reader looks beyond the position that its error names.
-/

namespace FilterLang
namespace Canonical

/-- What is wrong with a text that should be in canonical form. -/
inductive Fault
  /-- Another character, or the end of the text, stands where a certain one
  must stand. -/
  | expected (wanted : Char) (found : Option Char)
  /-- A backslash is followed by a character that names no escape. -/
  | invalidEscape (found : Char)
  /-- The text ends inside a quoted text. -/
  | unterminatedText
  /-- The text ends inside a code point escape. -/
  | unterminatedCodePoint
  /-- The digits of a code point escape name no character. -/
  | invalidCodePoint (digits : String)
  /-- No expression has this kind. -/
  | unknownKind (name : String)
  /-- The operators are nested deeper than the limit. -/
  | tooDeep (limit : Nat)
  /-- Something follows a complete expression. -/
  | trailing
  deriving DecidableEq

/-- The text of a fault. -/
def Fault.message : Fault → String
  | expected wanted (some found) =>
      "expected '" ++ wanted.toString ++ "', found '" ++ found.toString ++ "'"
  | expected wanted none =>
      "expected '" ++ wanted.toString ++ "', found end of input"
  | invalidEscape found => "invalid escape sequence \\" ++ found.toString
  | unterminatedText => "unterminated string"
  | unterminatedCodePoint => "unterminated unicode escape"
  | invalidCodePoint digits =>
      "invalid unicode escape \\u\x7b" ++ digits ++ "\x7d"
  | unknownKind name => "unknown node kind '" ++ name ++ "'"
  | tooDeep limit =>
      "tree nesting exceeds the maximum depth of " ++ limit.repr
  | trailing => "trailing input after tree"

/-- A fault and the place where it was met. -/
structure ReadError where
  /-- The position of a character, counted from one. -/
  position : Nat
  /-- What is wrong there. -/
  fault : Fault
  deriving DecidableEq

/-- The text of an error with its position. -/
def ReadError.message (error : ReadError) : String :=
  error.fault.message ++ " at position " ++ error.position.repr

/-- A place in a text. -/
structure Place where
  /-- The position of the next character, counted from one. -/
  position : Nat
  /-- The text from that character on. -/
  rest : List Char
  deriving DecidableEq

namespace Place

/-- The place at the start of a text. -/
def start (text : List Char) : Place :=
  ⟨1, text⟩

/-- An error at a place. -/
def error
    (place : Place)
    (fault : Fault) : ReadError :=
  ⟨place.position, fault⟩

/-- The place behind the characters of one class. -/
def skip
    (place : Place)
    (skipped : Char → Bool) : Place :=
  ⟨place.position + (place.rest.takeWhile skipped).length,
    place.rest.dropWhile skipped⟩

/-- The place behind a certain character, which must stand at this place. -/
def expect
    (place : Place)
    (wanted : Char) : Except ReadError Place :=
  match place.rest with
  | [] => .error (place.error (.expected wanted none))
  | found :: rest =>
      if found = wanted then
        .ok ⟨place.position + 1, rest⟩
      else
        .error (place.error (.expected wanted (some found)))

theorem length_skip_le
    (place : Place)
    (skipped : Char → Bool) :
    (place.skip skipped).rest.length ≤ place.rest.length :=
  (List.dropWhile_sublist skipped).length_le

theorem length_expect
    {place next : Place}
    {wanted : Char}
    (expected : place.expect wanted = .ok next) :
    next.rest.length < place.rest.length := by
  simp only [expect] at expected
  split at expected
  · simp at expected
  · rename_i found rest equal
    split at expected
    · simp only [Except.ok.injEq] at expected
      rw [← expected, equal]
      exact Nat.lt_succ_self _
    · simp at expected

/-- The characters from one place of a text up to another one. -/
structure Spans
    (place : Place)
    (written : List Char)
    (next : Place) : Prop where
  /-- The characters stand at the first place, the second one behind them. -/
  rest : place.rest = written ++ next.rest
  /-- Positions count characters. -/
  position : next.position = place.position + written.length

theorem spans_nil
    {place next : Place} :
    place.Spans [] next ↔ place = next := by
  constructor
  · rintro ⟨rest, position⟩
    cases place
    cases next
    simp_all
  · rintro rfl
    exact ⟨rfl, rfl⟩

theorem spans_append
    {place next : Place}
    {front back : List Char} :
    place.Spans (front ++ back) next ↔
      ∃ middle, place.Spans front middle ∧ middle.Spans back next := by
  constructor
  · rintro ⟨rest, position⟩
    rw [List.append_assoc] at rest
    rw [List.length_append, ← Nat.add_assoc] at position
    exact ⟨⟨place.position + front.length, back ++ next.rest⟩,
      ⟨rest, rfl⟩, ⟨rfl, position⟩⟩
  · rintro ⟨middle, ⟨frontRest, frontPosition⟩, ⟨backRest, backPosition⟩⟩
    refine ⟨?_, ?_⟩
    · rw [frontRest, backRest, List.append_assoc]
    · rw [backPosition, frontPosition, List.length_append, Nat.add_assoc]

theorem spans_cons
    {place next : Place}
    {character : Char}
    {written : List Char} :
    place.Spans (character :: written) next ↔
      ∃ middle, place.Spans [character] middle ∧ middle.Spans written next := by
  rw [← List.singleton_append, spans_append]

theorem spans_singleton
    {place next : Place}
    {character : Char} :
    place.Spans [character] next ↔
      ∃ rest, place.rest = character :: rest ∧
        next = ⟨place.position + 1, rest⟩ := by
  constructor
  · rintro ⟨rest, position⟩
    refine ⟨next.rest, rest, ?_⟩
    cases next
    simp_all
  · rintro ⟨rest, equal, rfl⟩
    exact ⟨equal, rfl⟩

theorem spans_cons_at
    {place next : Place}
    {character found : Char}
    {written rest : List Char}
    (atPlace : place.rest = found :: rest) :
    place.Spans (character :: written) next ↔
      character = found ∧
        Place.Spans ⟨place.position + 1, rest⟩ written next := by
  rw [spans_cons]
  simp only [spans_singleton, atPlace, List.cons.injEq]
  constructor
  · rintro ⟨middle, ⟨_, ⟨rfl, rfl⟩, rfl⟩, spans⟩
    exact ⟨rfl, spans⟩
  · rintro ⟨rfl, spans⟩
    exact ⟨_, ⟨_, ⟨rfl, rfl⟩, rfl⟩, spans⟩

theorem expect_eq_ok_iff
    {place next : Place}
    {wanted : Char} :
    place.expect wanted = .ok next ↔ place.Spans [wanted] next := by
  rw [spans_singleton]
  unfold expect
  split
  · rename_i equal
    simp [equal]
  · rename_i found rest equal
    rw [equal]
    split
    · rename_i same
      subst same
      simp [eq_comm]
    · rename_i different
      simp [different]

theorem spans_skip
    (place : Place)
    (skipped : Char → Bool) :
    place.Spans (place.rest.takeWhile skipped) (place.skip skipped) :=
  ⟨List.takeWhile_append_dropWhile.symm, rfl⟩

/-- A run of characters of one class is all that is skipped if no other such
character follows. -/
theorem Spans.skip_eq
    {place next : Place}
    {skipped : Char → Bool}
    {written : List Char}
    (spans : place.Spans written next)
    (writtenSkipped : ∀ character ∈ written, skipped character)
    (stops : StopsRun skipped next.rest) :
    place.rest.takeWhile skipped = written ∧ place.skip skipped = next := by
  obtain ⟨taken, dropped⟩ :=
    longestRun_iff.mpr ⟨spans.rest.symm, writtenSkipped, stops⟩
  refine ⟨taken, ?_⟩
  rw [skip, taken, dropped, ← spans.position]

end Place
end Canonical
end FilterLang
