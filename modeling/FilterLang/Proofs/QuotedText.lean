import FilterLang.Canonical.Format
import FilterLang.Canonical.QuotedReader
import FilterLang.Outcome
import FilterLang.Text.Ascii
import Mathlib.Data.List.Induction

/-!
# Quoted text is read by its format

The reader of quoted text takes exactly what the format allows. Every step of it
is described by the characters that it passes over: those of a number, of an
item, of a whole quoted text.
-/

namespace FilterLang
namespace Canonical

open Numeral

/-! ## Numbers -/

theorem digitValue?_of_isDigit
    {digit : Char}
    {value : Nat}
    (isDigit : IsDigit digit value) :
    digitValue? 16 digit = some value := by
  obtain ⟨alphabet, member, found⟩ := isDigit
  have complete :
      ∀ alphabet ∈ digitAlphabets,
        alphabet.length = 16 ∧
          ∀ place < 16,
            alphabet[place]?.bind (digitValue? 16) = some place := by
    decide
  obtain ⟨length, values⟩ := complete alphabet member
  have bound : value < alphabet.length :=
    (List.getElem?_eq_some_iff.mp found).1
  have atValue := values value (by omega)
  rwa [found, Option.bind_some] at atValue

theorem isDigit_of_digitValue?
    {digit : Char}
    {value : Nat}
    (valued : digitValue? 16 digit = some value) :
    IsDigit digit value := by
  have small : digit.toNat < 128 := by
    obtain ⟨hexadecimal, -⟩ := Option.filter_eq_some_iff.mp valued
    unfold hexValue? at hexadecimal
    simp only [Char.le_def, UInt32.le_iff_toNat_le] at hexadecimal
    have bounds :
        ('9' : Char).val.toNat < 128 ∧ ('f' : Char).val.toNat < 128 ∧
          ('F' : Char).val.toNat < 128 := by
      decide
    have toNat_eq : digit.toNat = digit.val.toNat := rfl
    split at hexadecimal
    · omega
    · split at hexadecimal
      · omega
      · split at hexadecimal
        · omega
        · simp at hexadecimal
  have value_lt : value < 16 := by
    simpa using (Option.filter_eq_some_iff.mp valued).2
  exact of_ascii
    (fun digit => ∀ value < 16, digitValue? 16 digit = some value →
      ∃ alphabet ∈ digitAlphabets, alphabet[value]? = some digit)
    (by decide +kernel) small value value_lt valued

theorem isDigit_iff
    {digit : Char}
    {value : Nat} :
    IsDigit digit value ↔ digitValue? 16 digit = some value :=
  ⟨digitValue?_of_isDigit, isDigit_of_digitValue?⟩

/-- Digits write a number exactly when they are read as that number. -/
theorem writesNumber_iff
    {digits : List Char}
    {number : Nat} :
    WritesNumber digits number ↔ value? 16 digits = some number := by
  constructor
  · intro written
    rw [value?_eq_some_iff]
    induction written with
    | single isDigit =>
        refine ⟨List.cons_ne_nil _ _, ?_⟩
        simp [valueFrom?, isDigit_iff.mp isDigit]
    | append written isDigit hypothesis =>
        refine ⟨List.append_ne_nil_of_right_ne_nil _ (List.cons_ne_nil _ _), ?_⟩
        rw [valueFrom?_append, hypothesis.2, isDigit_iff.mp isDigit]
        rfl
  · rw [value?_eq_some_iff]
    rintro ⟨nonempty, valued⟩
    -- On the digits from the last one back, since a number is written on by
    -- one digit at its end.
    induction digits using List.reverseRecOn generalizing number with
    | nil => exact absurd rfl nonempty
    | append_singleton front digit hypothesis =>
        rw [valueFrom?_append] at valued
        obtain ⟨frontNumber, frontValued, atDigit⟩ :=
          Option.bind_eq_some_iff.mp valued
        obtain ⟨value, isDigit, rfl⟩ := Option.map_eq_some_iff.mp atDigit
        cases front with
        | nil =>
            obtain rfl : 0 = frontNumber := by
              simpa [valueFrom?] using frontValued
            rw [Nat.mul_zero, Nat.zero_add]
            exact .single (isDigit_iff.mpr isDigit)
        | cons first front =>
            exact .append (hypothesis (List.cons_ne_nil _ _) frontValued)
              (isDigit_iff.mpr isDigit)

/-- A character that is no digit is in no number. -/
theorem WritesNumber.notMem
    {digits : List Char}
    {number : Nat}
    {other : Char}
    (written : WritesNumber digits number)
    (noDigit : digitValue? 16 other = none) :
    other ∉ digits := by
  have notDigit {digit : Char} {value : Nat} (isDigit : IsDigit digit value) :
      other ≠ digit := by
    rintro rfl
    rw [isDigit_iff, noDigit] at isDigit
    simp at isDigit
  induction written with
  | single isDigit => simpa using notDigit isDigit
  | append written isDigit hypothesis =>
      simp [hypothesis, notDigit isDigit]

/-- Digits name a character by its code point, with or without a sign. -/
def WritesCodePoint
    (digits : List Char)
    (character : Char) : Prop :=
  WritesNumber digits character.toNat ∨
    ∃ unsigned, digits = '+' :: unsigned ∧
      WritesNumber unsigned character.toNat

theorem WritesCodePoint.brace_notMem
    {digits : List Char}
    {character : Char}
    (written : WritesCodePoint digits character) :
    '}' ∉ digits := by
  rcases written with plain | ⟨unsigned, rfl, signed⟩
  · exact plain.notMem (by decide)
  · simpa using signed.notMem (by decide)

theorem codePoint?_eq_some_iff
    {digits : List Char}
    {character : Char} :
    codePoint? digits = some character ↔ WritesCodePoint digits character := by
  simp only [WritesCodePoint, writesNumber_iff, ← unsigned?_eq_some_iff]
  unfold codePoint?
  cases unsigned? 16 digits with
  | none => simp
  | some value =>
      simp only [Option.some.injEq]
      constructor
      · intro named
        split at named
        · rename_i valid
          obtain rfl : Char.ofNat value = character := by simpa using named
          rw [Char.ofNat, dif_pos valid]
          rfl
        · simp at named
      · rintro rfl
        have valid : character.toNat.isValidChar := character.valid
        rw [if_pos valid, Char.ofNat_toNat]

theorem readCodePoint_eq_ok_iff
    {place next : Place}
    {character : Char} :
    readCodePoint place = .ok (character, next) ↔
      ∃ digits, WritesCodePoint digits character ∧
        place.Spans ('{' :: digits ++ ['}']) next := by
  simp only [readCodePoint, bind_eq_ok_iff, Place.expect_eq_ok_iff]
  constructor
  · rintro ⟨inside, opened, read⟩
    split at read
    · simp at read
    · rename_i closing rest atClosing
      split at read
      · simp at read
      · rename_i found named
        simp only [pure, Except.pure, Except.ok.injEq, Prod.mk.injEq] at read
        obtain ⟨rfl, rfl⟩ := read
        refine ⟨_, codePoint?_eq_some_iff.mp named, ?_⟩
        obtain ⟨-, -, stops⟩ := longestRun (· != '}') inside.rest
        have isBrace : closing = '}' := by
          simp only [Place.skip] at atClosing
          simpa using stops closing (by rw [atClosing]; rfl)
        subst isBrace
        rw [List.cons_append, Place.spans_cons]
        refine ⟨inside, opened, Place.spans_append.mpr ?_⟩
        refine ⟨_, inside.spans_skip _, ?_⟩
        exact Place.spans_singleton.mpr ⟨rest, atClosing, rfl⟩
  · rintro ⟨digits, written, spans⟩
    rw [List.cons_append, Place.spans_cons] at spans
    obtain ⟨inside, opened, spans⟩ := spans
    obtain ⟨closing, passed, closed⟩ := Place.spans_append.mp spans
    obtain ⟨rest, atClosing, rfl⟩ := Place.spans_singleton.mp closed
    have digitsSkipped : ∀ digit ∈ digits, (digit != '}') = true := by
      rintro digit member
      have different : digit ≠ '}' := by
        rintro rfl
        exact written.brace_notMem member
      simp [different]
    have stops : StopsRun (· != '}') closing.rest := by
      simp [StopsRun, atClosing]
    obtain ⟨taken, skipped⟩ := passed.skip_eq digitsSkipped stops
    refine ⟨inside, opened, ?_⟩
    rw [taken, skipped, atClosing, codePoint?_eq_some_iff.mpr written]
    rfl

/-! ## Items -/

theorem namedEscape?_eq_some_iff
    {letter character : Char} :
    namedEscape? letter = some character ↔
      (letter, character) ∈ escapeLetters := by
  constructor
  · intro named
    unfold namedEscape? at named
    split at named <;> simp_all [escapeLetters, eq_comm]
  · intro named
    simp only [escapeLetters, List.mem_cons, List.not_mem_nil, or_false,
      Prod.mk.injEq] at named
    rcases named with named | named | named | named | named | named | named <;>
    · obtain ⟨rfl, rfl⟩ := named
      rfl

/-- An item that starts with a backslash is an escape letter or a code point. -/
theorem writesItem_backslash_iff
    {written : List Char}
    {character : Char} :
    WritesItem ('\\' :: written) character ↔
      (∃ letter, written = [letter] ∧ (letter, character) ∈ escapeLetters) ∨
        ∃ digits, written = 'u' :: ('{' :: digits ++ ['}']) ∧
          WritesCodePoint digits character := by
  constructor
  · generalize equal : '\\' :: written = item
    intro writes
    cases writes with
    | plain notQuote notBackslash =>
        exact absurd (List.cons.inj equal).1.symm notBackslash
    | escape named => exact Or.inl ⟨_, by simpa using equal, named⟩
    | codePoint number =>
        exact Or.inr ⟨_, by simpa using equal, Or.inl number⟩
    | signedCodePoint number =>
        exact Or.inr ⟨_, by simpa using equal, Or.inr ⟨_, rfl, number⟩⟩
  · rintro (⟨letter, rfl, named⟩ |
      ⟨digits, rfl, number | ⟨unsigned, rfl, number⟩⟩)
    · exact .escape named
    · exact .codePoint number
    · exact .signedCodePoint number

theorem readEscape_eq_ok_iff
    {place next : Place}
    {character : Char} :
    readEscape place = .ok (character, next) ↔
      ∃ written, WritesItem ('\\' :: written) character ∧
        place.Spans written next := by
  constructor
  · intro read
    unfold readEscape at read
    split at read
    · simp at read
    · rename_i letter rest atLetter
      split at read
      · rename_i isUnicode
        subst isUnicode
        obtain ⟨digits, number, spans⟩ := readCodePoint_eq_ok_iff.mp read
        refine ⟨'u' :: ('{' :: digits ++ ['}']), ?_, ?_⟩
        · exact writesItem_backslash_iff.mpr (Or.inr ⟨digits, rfl, number⟩)
        · exact (Place.spans_cons_at atLetter).mpr ⟨rfl, spans⟩
      · split at read
        · simp at read
        · rename_i found named
          simp only [Except.ok.injEq, Prod.mk.injEq] at read
          obtain ⟨rfl, rfl⟩ := read
          have member := namedEscape?_eq_some_iff.mp named
          exact ⟨[letter], .escape member,
            Place.spans_singleton.mpr ⟨rest, atLetter, rfl⟩⟩
  · rintro ⟨written, writes, spans⟩
    unfold readEscape
    rcases writesItem_backslash_iff.mp writes with
      ⟨letter, rfl, named⟩ | ⟨digits, rfl, number⟩
    · obtain ⟨rest, atLetter, rfl⟩ := Place.spans_singleton.mp spans
      have notUnicode : letter ≠ 'u' := by
        rintro rfl
        simp [escapeLetters] at named
      simp only [atLetter, if_neg notUnicode,
        namedEscape?_eq_some_iff.mpr named]
    · obtain ⟨behind, first, later⟩ := Place.spans_cons.mp spans
      obtain ⟨rest, atLetter, rfl⟩ := Place.spans_singleton.mp first
      simp only [atLetter, if_true]
      exact readCodePoint_eq_ok_iff.mpr ⟨digits, number, later⟩

theorem writesItem_plain_iff
    {first character : Char}
    {written : List Char}
    (notBackslash : first ≠ '\\') :
    WritesItem (first :: written) character ↔
      first ≠ '"' ∧ written = [] ∧ character = first := by
  constructor
  · generalize equal : first :: written = item
    intro writes
    cases writes with
    | plain notQuote _ =>
        obtain ⟨rfl, rfl⟩ := List.cons.inj equal
        exact ⟨notQuote, rfl, rfl⟩
    | escape named => exact absurd (List.cons.inj equal).1 notBackslash
    | codePoint number => exact absurd (List.cons.inj equal).1 notBackslash
    | signedCodePoint number =>
        exact absurd (List.cons.inj equal).1 notBackslash
  · rintro ⟨notQuote, rfl, rfl⟩
    exact .plain notQuote notBackslash

theorem WritesItem.ne_nil
    {item : List Char}
    {character : Char}
    (writes : WritesItem item character) :
    item ≠ [] := by
  cases writes <;> simp

/-! ## Texts -/

/-- The characters from a place on write a text and its closing quote, up to
another place. -/
def WritesRest
    (place : Place)
    (text : List Char)
    (next : Place) : Prop :=
  ∃ items, WritesItems items text ∧ place.Spans (items ++ ['"']) next

theorem writesRest_iff
    {place next : Place}
    {text : List Char} :
    WritesRest place text next ↔
      (text = [] ∧ place.Spans ['"'] next) ∨
        ∃ item character later behind,
          text = character :: later ∧ WritesItem item character ∧
            place.Spans item behind ∧ WritesRest behind later next := by
  constructor
  · rintro ⟨items, writes, spans⟩
    cases writes with
    | nil => exact Or.inl ⟨rfl, spans⟩
    | @cons item items later character first others =>
        rw [List.append_assoc] at spans
        obtain ⟨behind, itemSpans, othersSpan⟩ := Place.spans_append.mp spans
        exact Or.inr ⟨item, character, later, behind, rfl, first, itemSpans,
          items, others, othersSpan⟩
  · rintro (⟨rfl, spans⟩ |
      ⟨item, character, later, behind, rfl, first, itemSpans, items, others,
        othersSpan⟩)
    · exact ⟨[], .nil, spans⟩
    · refine ⟨item ++ items, .cons first others, ?_⟩
      rw [List.append_assoc]
      exact Place.spans_append.mpr ⟨behind, itemSpans, othersSpan⟩

theorem not_writesRest_at_end
    {place next : Place}
    {text : List Char}
    (atEnd : place.rest = []) :
    ¬WritesRest place text next := by
  rintro ⟨items, -, spans⟩
  have rest := spans.rest
  simp [atEnd] at rest

/-- An item takes the character at its place and what it writes behind it. -/
theorem writesItem_spans_iff
    {place behind : Place}
    {first character : Char}
    {rest item : List Char}
    (atPlace : place.rest = first :: rest) :
    WritesItem item character ∧ place.Spans item behind ↔
      ∃ written, item = first :: written ∧
        WritesItem (first :: written) character ∧
        Place.Spans ⟨place.position + 1, rest⟩ written behind := by
  cases item with
  | nil => simpa using fun writes => absurd rfl (WritesItem.ne_nil writes)
  | cons head written =>
      rw [Place.spans_cons_at atPlace]
      constructor
      · rintro ⟨writes, rfl, spans⟩
        exact ⟨written, rfl, writes, spans⟩
      · rintro ⟨_, equal, writes, spans⟩
        obtain ⟨rfl, rfl⟩ := List.cons.inj equal
        exact ⟨writes, rfl, spans⟩

theorem writesRest_quote_iff
    {place next : Place}
    {rest text : List Char}
    (atPlace : place.rest = '"' :: rest) :
    WritesRest place text next ↔
      text = [] ∧ next = ⟨place.position + 1, rest⟩ := by
  rw [writesRest_iff]
  constructor
  · rintro (⟨rfl, spans⟩ |
      ⟨item, character, later, behind, rfl, writes, spans, -⟩)
    · obtain ⟨-, ended⟩ := (Place.spans_cons_at atPlace).mp spans
      exact ⟨rfl, (Place.spans_nil.mp ended).symm⟩
    · obtain ⟨written, rfl, writes, -⟩ :=
        (writesItem_spans_iff atPlace).mp ⟨writes, spans⟩
      exact absurd rfl ((writesItem_plain_iff (by decide)).mp writes).1
  · rintro ⟨rfl, rfl⟩
    exact Or.inl ⟨rfl, Place.spans_singleton.mpr ⟨rest, atPlace, rfl⟩⟩

/-- A text that does not end here goes on with an item. -/
theorem writesRest_item_iff
    {place next : Place}
    {first : Char}
    {rest text : List Char}
    (atPlace : place.rest = first :: rest)
    (notQuote : first ≠ '"') :
    WritesRest place text next ↔
      ∃ written character later behind,
        text = character :: later ∧ WritesItem (first :: written) character ∧
          Place.Spans ⟨place.position + 1, rest⟩ written behind ∧
            WritesRest behind later next := by
  rw [writesRest_iff]
  constructor
  · rintro (⟨-, spans⟩ |
      ⟨item, character, later, behind, rfl, writes, spans, writesLater⟩)
    · exact absurd ((Place.spans_cons_at atPlace).mp spans).1.symm notQuote
    · obtain ⟨written, -, writes, spans⟩ :=
        (writesItem_spans_iff atPlace).mp ⟨writes, spans⟩
      exact ⟨written, character, later, behind, rfl, writes, spans, writesLater⟩
  · rintro ⟨written, character, later, behind, rfl, writes, spans, writesLater⟩
    obtain ⟨writes, spans⟩ :=
      (writesItem_spans_iff atPlace).mpr ⟨written, rfl, writes, spans⟩
    exact Or.inr
      ⟨_, character, later, behind, rfl, writes, spans, writesLater⟩

theorem writesRest_backslash_iff
    {place next : Place}
    {rest text : List Char}
    (atPlace : place.rest = '\\' :: rest) :
    WritesRest place text next ↔
      ∃ character later behind, text = character :: later ∧
        readEscape ⟨place.position + 1, rest⟩ = .ok (character, behind) ∧
          WritesRest behind later next := by
  rw [writesRest_item_iff atPlace (by decide)]
  simp only [readEscape_eq_ok_iff]
  constructor
  · rintro ⟨written, character, later, behind, rfl, writes, spans, writesLater⟩
    exact ⟨character, later, behind, rfl, ⟨written, writes, spans⟩, writesLater⟩
  · rintro ⟨character, later, behind, rfl, ⟨written, writes, spans⟩,
      writesLater⟩
    exact ⟨written, character, later, behind, rfl, writes, spans, writesLater⟩

theorem writesRest_plain_iff
    {place next : Place}
    {first : Char}
    {rest text : List Char}
    (atPlace : place.rest = first :: rest)
    (notQuote : first ≠ '"')
    (notBackslash : first ≠ '\\') :
    WritesRest place text next ↔
      ∃ later, text = first :: later ∧
        WritesRest ⟨place.position + 1, rest⟩ later next := by
  rw [writesRest_item_iff atPlace notQuote]
  constructor
  · rintro ⟨written, character, later, behind, rfl, writes, spans, writesLater⟩
    obtain ⟨-, rfl, rfl⟩ := (writesItem_plain_iff notBackslash).mp writes
    obtain rfl := Place.spans_nil.mp spans
    exact ⟨later, rfl, writesLater⟩
  · rintro ⟨later, rfl, writesLater⟩
    exact ⟨[], first, later, _, rfl, .plain notQuote notBackslash,
      Place.spans_nil.mpr rfl, writesLater⟩

theorem readCharacters_eq_ok_iff
    {place next : Place}
    {text : List Char} :
    readCharacters place = .ok (text, next) ↔ WritesRest place text next := by
  -- Along the recursion of the reader, by the character at the place.
  fun_induction readCharacters place generalizing text next with
  | case1 place atEnd =>
      simp [not_writesRest_at_end atEnd]
  | case2 place rest after =>
      rename_i atPlace
      rw [writesRest_quote_iff atPlace]
      simp [after, eq_comm]
  | case3 place rest after fault failed atPlace =>
      have escapeFailed :
          readEscape ⟨place.position + 1, rest⟩ = .error fault := failed
      rw [writesRest_backslash_iff atPlace]
      simp [escapeFailed]
  | case4 place rest after escaped behind read atPlace =>
      rename_i hypothesis
      rw [writesRest_backslash_iff atPlace, map_eq_ok_iff]
      simp only [Prod.exists, hypothesis, Prod.mk.injEq]
      constructor
      · rintro ⟨later, after, writes, rfl, rfl⟩
        exact ⟨escaped, later, behind, rfl, read, writes⟩
      · rintro ⟨character, later, place, rfl, readAgain, writes⟩
        rw [read] at readAgain
        simp only [Except.ok.injEq, Prod.mk.injEq] at readAgain
        obtain ⟨rfl, rfl⟩ := readAgain
        exact ⟨later, next, writes, rfl, rfl⟩
  | case5 place character rest atPlace after notQuote notBackslash =>
      rename_i hypothesis
      rw [writesRest_plain_iff atPlace notQuote notBackslash, map_eq_ok_iff]
      simp only [Prod.exists, hypothesis, Prod.mk.injEq]
      constructor
      · rintro ⟨later, behind, writes, rfl, rfl⟩
        exact ⟨later, rfl, writes⟩
      · rintro ⟨later, rfl, writes⟩
        exact ⟨later, next, writes, rfl, rfl⟩

/-- Quoted text is read exactly where its format writes it. -/
theorem readText_eq_ok_iff
    {place next : Place}
    {text : String} :
    readText place = .ok (text, next) ↔
      ∃ written, WritesText written text ∧ place.Spans written next := by
  simp only [readText, bind_eq_ok_iff, Place.expect_eq_ok_iff, Prod.exists,
    readCharacters_eq_ok_iff, pure, Except.pure, Except.ok.injEq, Prod.mk.injEq]
  constructor
  · rintro ⟨inside, opened, characters, after, ⟨items, writes, spans⟩, rfl, rfl⟩
    refine ⟨'"' :: items ++ ['"'], .quoted ?_, ?_⟩
    · rwa [String.toList_ofList]
    · exact Place.spans_cons.mpr ⟨inside, opened, spans⟩
  · rintro ⟨written, ⟨writes⟩, spans⟩
    obtain ⟨inside, opened, spans⟩ := Place.spans_cons.mp spans
    exact ⟨inside, opened, text.toList, next, ⟨_, writes, spans⟩,
      String.ofList_toList, rfl⟩

end Canonical
end FilterLang
