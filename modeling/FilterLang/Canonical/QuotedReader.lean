import FilterLang.Canonical.Place
import FilterLang.Text.Numeral

/-!
# Reading quoted text

A quoted text is read back character by character. Besides the escapes that
quoting writes, an escaped single quote is accepted, and a code point may have
digits of either case, leading zeros and one plus sign in front. All characters
but the double quote and the backslash stand for themselves, line breaks
included.
-/

namespace FilterLang
namespace Canonical

/-- The character that a letter behind a backslash stands for. -/
def namedEscape? : Char → Option Char
  | 'n' => some '\n'
  | 't' => some '\t'
  | 'r' => some '\r'
  | '0' => some '\x00'
  | '"' => some '"'
  | '\'' => some '\''
  | '\\' => some '\\'
  | _ => none

/-- The character whose code point is written by the given digits. -/
def codePoint? (digits : List Char) : Option Char :=
  match Numeral.unsigned? 16 digits with
  | none => none
  | some value => if value.isValidChar then some (Char.ofNat value) else none

/-- Read a code point between braces. -/
def readCodePoint (place : Place) : Except ReadError (Char × Place) := do
  let inside ← place.expect '{'
  let digits := inside.rest.takeWhile (· != '}')
  let closing := inside.skip (· != '}')
  match closing.rest with
  | [] => .error (closing.error .unterminatedCodePoint)
  | _ :: rest =>
      match codePoint? digits with
      | none =>
          .error (closing.error (.invalidCodePoint (String.ofList digits)))
      | some character => return (character, ⟨closing.position + 1, rest⟩)

/-- Read what follows a backslash. -/
def readEscape (place : Place) : Except ReadError (Char × Place) :=
  match place.rest with
  | [] => .error (place.error .unterminatedText)
  | letter :: rest =>
      if letter = 'u' then
        readCodePoint ⟨place.position + 1, rest⟩
      else
        match namedEscape? letter with
        | none => .error (place.error (.invalidEscape letter))
        | some character => .ok (character, ⟨place.position + 1, rest⟩)

theorem length_readCodePoint
    {place next : Place}
    {character : Char}
    (read : readCodePoint place = .ok (character, next)) :
    next.rest.length < place.rest.length := by
  simp only [readCodePoint, bind, Except.bind] at read
  split at read
  · simp at read
  · rename_i inside opened
    have insideShorter := Place.length_expect opened
    have closingBound := inside.length_skip_le (· != '}')
    split at read
    · simp at read
    · rename_i closing rest equal
      rw [equal, List.length_cons] at closingBound
      split at read
      · simp at read
      · simp only [pure, Except.pure, Except.ok.injEq, Prod.mk.injEq] at read
        rw [← read.2]
        simp only
        omega

theorem length_readEscape
    {place next : Place}
    {character : Char}
    (read : readEscape place = .ok (character, next)) :
    next.rest.length < place.rest.length := by
  simp only [readEscape] at read
  split at read
  · simp at read
  · rename_i letter rest equal
    rw [equal, List.length_cons]
    split at read
    · have shorter := length_readCodePoint read
      simp only at shorter
      omega
    · split at read
      · simp at read
      · simp only [Except.ok.injEq, Prod.mk.injEq] at read
        rw [← read.2]
        exact Nat.lt_succ_self _

/-- Read the characters of a quoted text up to and past its closing quote. -/
def readCharacters (place : Place) : Except ReadError (List Char × Place) :=
  match _equal : place.rest with
  | [] => .error (place.error .unterminatedText)
  | character :: rest =>
      let next : Place := ⟨place.position + 1, rest⟩
      if character = '"' then
        .ok ([], next)
      else if character = '\\' then
        match _read : readEscape next with
        | .error error => .error error
        | .ok (escaped, behind) =>
            (readCharacters behind).map fun (text, after) =>
              (escaped :: text, after)
      else
        (readCharacters next).map fun (text, after) => (character :: text, after)
termination_by place.rest.length
decreasing_by
  · have shorter := length_readEscape _read
    rw [_equal, List.length_cons]
    exact Nat.lt_succ_of_lt shorter
  · rw [_equal, List.length_cons]
    exact Nat.lt_succ_self _

/-- Read a quoted text. -/
def readText (place : Place) : Except ReadError (String × Place) := do
  let inside ← place.expect '"'
  let (text, after) ← readCharacters inside
  return (String.ofList text, after)

end Canonical
end FilterLang
