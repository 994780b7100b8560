import FilterLang.Canonical.Reader
import FilterLang.Outcome
import Mathlib.Data.List.Basic

/-!
# Errors of the reader are local

A reader is local at a place when what it looks at decides what it does: an
error comes from the characters up to the position that it names, where the end
of the text counts as one more character, and a value comes from the characters
that the reader has passed. Every reader of the canonical form is local at every
place. So an error stays the same whatever stands behind its position.

The limit on depth can only cut reading off. A reader that may go deeper does
the same until then.
-/

namespace FilterLang
namespace Canonical

/-- Two places stand at the same position, and from there to another position
the text is the same at both, its end included. -/
structure Place.SameUpTo
    (place : Place)
    (position : Nat)
    (other : Place) : Prop where
  /-- Both stand at the same position. -/
  position_eq : other.position = place.position
  /-- The same character, or the end, stands at every position on the way. -/
  getElem?_eq : ∀ index, place.position + index ≤ position →
    other.rest[index]? = place.rest[index]?

namespace Place

variable {place other next : Place} {position : Nat} {written : List Char}

theorem SameUpTo.head?_eq
    (same : place.SameUpTo position other)
    (reached : place.position ≤ position) :
    other.rest.head? = place.rest.head? := by
  rw [List.head?_eq_getElem?, List.head?_eq_getElem?]
  exact same.getElem?_eq 0 reached

/-- Behind the same characters, two places are still the same. -/
theorem SameUpTo.advance
    (same : place.SameUpTo position other)
    (spans : place.Spans written next)
    (reached : next.position ≤ position + 1) :
    ∃ behind, other.Spans written behind ∧ next.SameUpTo position behind := by
  have written_eq : other.rest.take written.length = written := by
    apply List.ext_getElem?
    intro index
    by_cases inside : index < written.length
    · have within : place.position + index ≤ position := by
        have next_eq := spans.position
        omega
      rw [List.getElem?_take_of_lt inside, same.getElem?_eq index within,
        spans.rest, List.getElem?_append_left inside]
    · rw [List.getElem?_eq_none (by simp; omega),
        List.getElem?_eq_none (by omega)]
  refine ⟨⟨other.position + written.length, other.rest.drop written.length⟩,
    ⟨?_, rfl⟩, ?_, ?_⟩
  · exact (List.prefix_iff_eq_append.mp
      (List.prefix_iff_eq_take.mpr written_eq.symm)).symm
  · rw [spans.position, same.position_eq]
  · intro index within
    rw [spans.position] at within
    rw [List.getElem?_drop, same.getElem?_eq _ (by omega), spans.rest,
      List.getElem?_append_right (by omega), Nat.add_sub_cancel_left]

/-- A run of one class ends at the same place if the character behind it is the
same. -/
theorem SameUpTo.skip
    {skipped : Char → Bool}
    (same : place.SameUpTo position other)
    (reached : (place.skip skipped).position ≤ position) :
    other.rest.takeWhile skipped = place.rest.takeWhile skipped ∧
      (place.skip skipped).SameUpTo position (other.skip skipped) := by
  obtain ⟨-, runSkipped, stops⟩ := longestRun skipped place.rest
  obtain ⟨behind, spans, sameBehind⟩ :=
    same.advance (place.spans_skip skipped) (by omega)
  have stopsBehind : StopsRun skipped behind.rest := by
    unfold StopsRun
    rw [sameBehind.head?_eq reached]
    exact stops
  obtain ⟨taken, ended⟩ := spans.skip_eq runSkipped stopsBehind
  rw [ended]
  exact ⟨taken, sameBehind⟩

theorem Spans.position_le
    (spans : place.Spans written next) :
    place.position ≤ next.position ∧
      next.position + next.rest.length = place.position + place.rest.length := by
  have next_eq := spans.position
  have length_eq := congrArg List.length spans.rest
  rw [List.length_append] at length_eq
  omega

end Place

/-- A reader is local at a place. -/
structure LocalAt
    {α : Type}
    (reader : Place → Except ReadError (α × Place))
    (place : Place) : Prop where
  /-- An error names a position from the place to the end of the text. -/
  bounds : ∀ error, reader place = .error error →
    place.position ≤ error.position ∧
      error.position ≤ place.position + place.rest.length
  /-- An error is decided by the text up to its position. -/
  error : ∀ error, reader place = .error error →
    ∀ other, place.SameUpTo error.position other →
      reader other = .error error
  /-- A value is decided by the characters that are passed. -/
  ok : ∀ value next, reader place = .ok (value, next) →
    ∃ written, place.Spans written next ∧
      ∀ other behind, other.Spans written behind →
        reader other = .ok (value, behind)

namespace LocalAt

variable {α β : Type} {place : Place}
  {reader second : Place → Except ReadError (α × Place)}

theorem pure
    (value : α)
    (place : Place) :
    LocalAt (fun place => .ok (value, place)) place where
  bounds := by simp
  error := by simp
  ok := by
    rintro _ _ ⟨⟩
    refine ⟨[], Place.spans_nil.mpr rfl, ?_⟩
    intro other behind spans
    rw [Place.spans_nil.mp spans]

/-- The next character, or the end of the text, is an error. -/
theorem of_head
    (fault : Fault)
    (failed : ∀ other : Place, other.rest.head? = place.rest.head? →
      reader other = .error (other.error fault)) :
    LocalAt reader place where
  bounds := by
    intro error failedHere
    rw [failed place rfl, Except.error.injEq] at failedHere
    subst failedHere
    exact ⟨Nat.le_refl _, Nat.le_add_right _ _⟩
  error := by
    intro error failedHere other same
    rw [failed place rfl, Except.error.injEq] at failedHere
    subst failedHere
    rw [failed other (same.head?_eq (Nat.le_refl _)), Place.error,
      same.position_eq, Place.error]
  ok := by
    intro value next succeeded
    rw [failed place rfl] at succeeded
    cases succeeded

theorem of_end
    (fault : Fault)
    (atPlace : place.rest = [])
    (failed : ∀ other : Place, other.rest = [] →
      reader other = .error (other.error fault)) :
    LocalAt reader place := by
  refine of_head fault fun other head_eq => failed other ?_
  rwa [atPlace, List.head?_nil, List.head?_eq_none_iff] at head_eq

theorem of_found
    {found : Char}
    {rest : List Char}
    (fault : Fault)
    (atPlace : place.rest = found :: rest)
    (failed : ∀ (other : Place) (later : List Char),
      other.rest = found :: later → reader other = .error (other.error fault)) :
    LocalAt reader place := by
  refine of_head fault fun other head_eq => ?_
  rw [atPlace, List.head?_cons] at head_eq
  obtain ⟨later, atOther⟩ := List.head?_eq_some_iff.mp head_eq
  exact failed other later atOther

/-- The next character decides that another reader goes on behind it. -/
theorem of_cons
    {first : Char}
    {rest : List Char}
    (atPlace : place.rest = first :: rest)
    (goesOn : ∀ (other : Place) (later : List Char),
      other.rest = first :: later →
        reader other = second ⟨other.position + 1, later⟩)
    (behind : LocalAt second ⟨place.position + 1, rest⟩) :
    LocalAt reader place where
  bounds := by
    intro error failed
    rw [goesOn place rest atPlace] at failed
    have bounds := behind.bounds error failed
    simp only at bounds
    rw [atPlace, List.length_cons]
    omega
  error := by
    intro error failed other same
    rw [goesOn place rest atPlace] at failed
    have bounds := behind.bounds error failed
    have spans : place.Spans [first] ⟨place.position + 1, rest⟩ :=
      Place.spans_singleton.mpr ⟨rest, atPlace, rfl⟩
    obtain ⟨otherBehind, otherSpans, sameBehind⟩ :=
      same.advance spans (Nat.le_succ_of_le bounds.1)
    obtain ⟨later, atOther, rfl⟩ := Place.spans_singleton.mp otherSpans
    rw [goesOn other later atOther]
    exact behind.error error failed _ sameBehind
  ok := by
    intro value next succeeded
    rw [goesOn place rest atPlace] at succeeded
    obtain ⟨written, spans, decided⟩ := behind.ok value next succeeded
    refine ⟨first :: written,
      (Place.spans_cons_at atPlace).mpr ⟨rfl, spans⟩, ?_⟩
    intro other otherNext otherSpans
    obtain ⟨middle, atFirst, laterSpans⟩ := Place.spans_cons.mp otherSpans
    obtain ⟨later, atOther, rfl⟩ := Place.spans_singleton.mp atFirst
    rw [goesOn other later atOther]
    exact decided _ otherNext laterSpans

theorem bind
    {later : α → Place → Except ReadError (β × Place)}
    (first : LocalAt reader place)
    (behind : ∀ value next, reader place = .ok (value, next) →
      LocalAt (later value) next) :
    LocalAt (fun place => reader place >>= fun read => later read.1 read.2)
      place where
  bounds := by
    intro error failed
    rcases bind_eq_error_iff.mp failed with
      firstFailed | ⟨⟨value, next⟩, succeeded, laterFailed⟩
    · exact first.bounds error firstFailed
    · obtain ⟨written, spans, -⟩ := first.ok value next succeeded
      have passed := spans.position_le
      have bounds := (behind value next succeeded).bounds error laterFailed
      omega
  error := by
    intro error failed other same
    refine bind_eq_error_iff.mpr ?_
    rcases bind_eq_error_iff.mp failed with
      firstFailed | ⟨⟨value, next⟩, succeeded, laterFailed⟩
    · exact Or.inl (first.error error firstFailed other same)
    · have laterLocal := behind value next succeeded
      have bounds := laterLocal.bounds error laterFailed
      obtain ⟨written, spans, decided⟩ := first.ok value next succeeded
      obtain ⟨otherNext, otherSpans, sameBehind⟩ :=
        same.advance spans (Nat.le_succ_of_le bounds.1)
      exact Or.inr ⟨(value, otherNext), decided other otherNext otherSpans,
        laterLocal.error error laterFailed otherNext sameBehind⟩
  ok := by
    intro result final succeeded
    obtain ⟨⟨value, next⟩, firstSucceeded, laterSucceeded⟩ :=
      bind_eq_ok_iff.mp succeeded
    obtain ⟨front, frontSpans, firstDecided⟩ :=
      first.ok value next firstSucceeded
    obtain ⟨back, backSpans, laterDecided⟩ :=
      (behind value next firstSucceeded).ok result final laterSucceeded
    refine ⟨front ++ back,
      Place.spans_append.mpr ⟨next, frontSpans, backSpans⟩, ?_⟩
    intro other otherFinal spans
    obtain ⟨middle, otherFront, otherBack⟩ := Place.spans_append.mp spans
    exact bind_eq_ok_iff.mpr ⟨(value, middle),
      firstDecided other middle otherFront,
      laterDecided middle otherFinal otherBack⟩

theorem map
    (first : LocalAt reader place)
    (function : α → β) :
    LocalAt (fun place => (reader place).map fun read =>
      (function read.1, read.2)) place := by
  have bound := first.bind (fun value next _ => pure (function value) next)
  have same :
      (fun place => reader place >>= fun read =>
          (.ok (function read.1, read.2) : Except ReadError (β × Place))) =
        fun place => (reader place).map fun read =>
          (function read.1, read.2) := by
    funext other
    cases reader other <;> rfl
  rwa [same] at bound

/-- One certain character must stand at the place. -/
theorem expect_bind
    {wanted : Char}
    (behind : ∀ next, place.expect wanted = .ok next → LocalAt reader next) :
    LocalAt (fun place => place.expect wanted >>= reader) place := by
  cases atPlace : place.rest with
  | nil =>
      refine of_end (.expected wanted none) atPlace ?_
      intro other atOther
      simp only [Place.expect, atOther]
      rfl
  | cons found rest =>
      by_cases matched : found = wanted
      · subst matched
        refine of_cons atPlace ?_ (behind _ ?_)
        · intro other later atOther
          simp only [Place.expect, atOther, if_true]
          rfl
        · simp only [Place.expect, atPlace, if_true]
      · refine of_found (.expected wanted (some found)) atPlace ?_
        intro other later atOther
        simp only [Place.expect, atOther, if_neg matched]
        rfl

/-- A run of one class is passed, and then at least one character that is not in
the class. -/
theorem of_skip
    (skipped : Char → Bool)
    (later : List Char → Place → Except ReadError (α × Place))
    (goesOn : ∀ other : Place, reader other =
      later (other.rest.takeWhile skipped) (other.skip skipped))
    (moves : ∀ value, later (place.rest.takeWhile skipped)
      (place.skip skipped) ≠ .ok (value, place.skip skipped))
    (behind : LocalAt (later (place.rest.takeWhile skipped))
      (place.skip skipped)) :
    LocalAt reader place where
  bounds := by
    intro error failed
    rw [goesOn place] at failed
    have bounds := behind.bounds error failed
    have passed := (place.spans_skip skipped).position_le
    omega
  error := by
    intro error failed other same
    rw [goesOn place] at failed
    have bounds := behind.bounds error failed
    obtain ⟨run_eq, sameBehind⟩ := same.skip bounds.1
    rw [goesOn other, run_eq]
    exact behind.error error failed _ sameBehind
  ok := by
    intro value next succeeded
    rw [goesOn place] at succeeded
    obtain ⟨written, spans, decided⟩ := behind.ok value next succeeded
    obtain ⟨-, runSkipped, stops⟩ := longestRun skipped place.rest
    refine ⟨place.rest.takeWhile skipped ++ written,
      Place.spans_append.mpr ⟨_, place.spans_skip skipped, spans⟩, ?_⟩
    intro other final otherSpans
    obtain ⟨middle, runSpans, writtenSpans⟩ :=
      Place.spans_append.mp otherSpans
    -- The character that stopped the run is the first one written behind it.
    have stopsMiddle : StopsRun skipped middle.rest := by
      cases written with
      | nil =>
          rw [← Place.spans_nil.mp spans] at succeeded
          exact absurd succeeded (moves value)
      | cons first written =>
          obtain ⟨_, atSkip, -⟩ := Place.spans_cons.mp spans
          obtain ⟨_, atFirst, -⟩ := Place.spans_singleton.mp atSkip
          have skip_eq : place.rest.dropWhile skipped = _ := atFirst
          rw [skip_eq] at stops
          rw [writtenSpans.rest]
          exact stops
    obtain ⟨run_eq, ended⟩ := runSpans.skip_eq runSkipped stopsMiddle
    rw [goesOn other, run_eq, ended]
    exact decided middle final writtenSpans

end LocalAt

/-! ## The readers of quoted text -/

/-- Read the brace behind the digits of a code point. -/
def closeCodePoint
    (digits : List Char)
    (closing : Place) : Except ReadError (Char × Place) :=
  match closing.rest with
  | [] => .error (closing.error .unterminatedCodePoint)
  | _ :: rest =>
      match codePoint? digits with
      | none =>
          .error (closing.error (.invalidCodePoint (String.ofList digits)))
      | some character => .ok (character, ⟨closing.position + 1, rest⟩)

theorem readCodePoint_eq :
    readCodePoint = fun place => place.expect '{' >>= fun inside =>
      closeCodePoint (inside.rest.takeWhile (· != '}'))
        (inside.skip (· != '}')) :=
  rfl

theorem localAt_closeCodePoint
    (digits : List Char)
    (closing : Place) :
    LocalAt (closeCodePoint digits) closing := by
  cases atClosing : closing.rest with
  | nil =>
      refine .of_end .unterminatedCodePoint atClosing ?_
      intro other atOther
      simp only [closeCodePoint, atOther]
  | cons brace rest =>
      cases named : codePoint? digits with
      | none =>
          refine .of_found (.invalidCodePoint (String.ofList digits))
            atClosing ?_
          intro other later atOther
          simp only [closeCodePoint, atOther, named]
      | some character =>
          refine .of_cons atClosing ?_ (.pure character _)
          intro other later atOther
          simp only [closeCodePoint, atOther, named]

theorem closeCodePoint_moves
    {digits : List Char}
    {closing : Place}
    {character : Char} :
    closeCodePoint digits closing ≠ .ok (character, closing) := by
  unfold closeCodePoint
  split
  · simp
  · split
    · simp
    · intro succeeded
      have position_eq := congrArg Place.position
        (Prod.mk.inj (Except.ok.inj succeeded)).2
      simp at position_eq

theorem localAt_readCodePoint (place : Place) :
    LocalAt readCodePoint place := by
  rw [readCodePoint_eq]
  refine .expect_bind fun inside _ => ?_
  exact .of_skip (· != '}') closeCodePoint (fun _ => rfl)
    (fun _ => closeCodePoint_moves) (localAt_closeCodePoint _ _)

theorem localAt_readEscape (place : Place) :
    LocalAt readEscape place := by
  cases atPlace : place.rest with
  | nil =>
      refine .of_end .unterminatedText atPlace ?_
      intro other atOther
      simp only [readEscape, atOther]
  | cons letter rest =>
      by_cases isCodePoint : letter = 'u'
      · refine .of_cons atPlace ?_ (localAt_readCodePoint _)
        intro other later atOther
        simp only [readEscape, atOther, if_pos isCodePoint]
      · cases named : namedEscape? letter with
        | none =>
            refine .of_found (.invalidEscape letter) atPlace ?_
            intro other later atOther
            simp only [readEscape, atOther, if_neg isCodePoint, named]
        | some character =>
            refine .of_cons atPlace ?_ (.pure character _)
            intro other later atOther
            simp only [readEscape, atOther, if_neg isCodePoint, named]

theorem readCharacters_of_end
    {place : Place}
    (atPlace : place.rest = []) :
    readCharacters place = .error (place.error .unterminatedText) := by
  rw [readCharacters]
  split
  · rfl
  · simp_all

/-- The next character decides how reading goes on. -/
theorem readCharacters_of_cons
    {place : Place}
    {character : Char}
    {rest : List Char}
    (atPlace : place.rest = character :: rest) :
    readCharacters place =
      if character = '"' then
        .ok ([], ⟨place.position + 1, rest⟩)
      else if character = '\\' then
        readEscape ⟨place.position + 1, rest⟩ >>= fun escape =>
          (readCharacters escape.2).map fun read =>
            (escape.1 :: read.1, read.2)
      else
        (readCharacters ⟨place.position + 1, rest⟩).map fun read =>
          (character :: read.1, read.2) := by
  rw [readCharacters]
  split
  · simp_all
  · rename_i other otherRest atOther
    obtain ⟨rfl, rfl⟩ := List.cons.inj (atPlace.symm.trans atOther)
    split
    · rfl
    · split
      · dsimp only
        split
        · rename_i failed
          rw [failed]
          rfl
        · rename_i read
          rw [read]
          rfl
      · rfl

theorem localAt_readCharacters (place : Place) :
    LocalAt readCharacters place := by
  -- On the length of the text that is still to come.
  induction length_eq : place.rest.length using Nat.strongRecOn
    generalizing place with
  | ind length hypothesis =>
      subst length_eq
      cases atPlace : place.rest with
      | nil =>
          exact .of_end .unterminatedText atPlace
            fun _ => readCharacters_of_end
      | cons character rest =>
          by_cases isQuote : character = '"'
          · refine .of_cons atPlace ?_ (.pure [] _)
            intro other later atOther
            rw [readCharacters_of_cons atOther, if_pos isQuote]
          · by_cases isBackslash : character = '\\'
            · refine .of_cons atPlace ?_
                (.bind (localAt_readEscape _) fun escaped behind read =>
                  (hypothesis _ ?_ behind rfl).map (escaped :: ·))
              · intro other later atOther
                rw [readCharacters_of_cons atOther, if_neg isQuote,
                  if_pos isBackslash]
              · have shorter := length_readEscape read
                rw [atPlace, List.length_cons]
                exact Nat.lt_succ_of_lt shorter
            · refine .of_cons atPlace ?_
                ((hypothesis _ ?_ _ rfl).map (character :: ·))
              · intro other later atOther
                rw [readCharacters_of_cons atOther, if_neg isQuote,
                  if_neg isBackslash]
              · rw [atPlace, List.length_cons]
                exact Nat.lt_succ_self _

theorem localAt_readText (place : Place) :
    LocalAt readText place :=
  .expect_bind fun inside _ =>
    .bind (localAt_readCharacters inside) fun text _ _ =>
      .pure (String.ofList text) _

/-! ## The reader of expressions -/

theorem localAt_readContents
    {readOperand : Place → Except ReadError (Expr × Place)}
    (localOperand : ∀ place, LocalAt readOperand place)
    (name : String)
    (inside : Place) :
    LocalAt (readContents readOperand name) inside := by
  unfold readContents
  split
  · exact .bind (localAt_readText inside) fun text _ _ =>
      .pure (Expr.identifier text) _
  · exact .bind (localAt_readText inside) fun text _ _ =>
      .pure (Expr.literal text) _
  · exact .bind (localOperand inside) fun child _ _ => .pure (Expr.not child) _
  · rename_i op _
    exact .bind (localOperand inside) fun left _ _ =>
      .expect_bind fun second _ =>
        .bind (localOperand second) fun right _ _ =>
          .pure (Expr.binary op left right) _
  · exact .of_head (.unknownKind name) fun _ _ => rfl

/-- Read the brace behind the name of a kind. -/
def openContents
    (name : List Char)
    (brace : Place) : Except ReadError (String × Place) :=
  brace.expect '{' >>= fun inside => .ok (String.ofList name, inside)

theorem localAt_openContents
    (name : List Char)
    (brace : Place) :
    LocalAt (openContents name) brace :=
  .expect_bind fun inside _ => .pure (String.ofList name) inside

theorem openContents_moves
    {name : List Char}
    {brace : Place}
    {text : String} :
    openContents name brace ≠ .ok (text, brace) := by
  intro succeeded
  obtain ⟨inside, opened, ⟨⟩⟩ := bind_eq_ok_iff.mp succeeded
  exact absurd (Place.length_expect opened) (Nat.lt_irrefl _)

/-- Read the name of a kind and the brace behind it. -/
def readHeader (place : Place) : Except ReadError (String × Place) :=
  openContents (place.rest.takeWhile Char.isUpper) (place.skip Char.isUpper)

theorem localAt_readHeader (place : Place) :
    LocalAt readHeader place :=
  .of_skip Char.isUpper openContents (fun _ => rfl)
    (fun _ => openContents_moves) (localAt_openContents _ _)

theorem readTree_succ
    (limit levels : Nat) :
    readTree limit (levels + 1) = fun place =>
      readHeader place >>= fun header =>
        readContents (readTree limit levels) header.1 header.2 >>= fun read =>
          read.2.expect '}' >>= fun after => .ok (read.1, after) := by
  funext place
  rw [readTree, readHeader, openContents]
  cases (place.skip Char.isUpper).expect '{' <;> rfl

theorem localAt_readTree
    (limit levels : Nat)
    (place : Place) :
    LocalAt (readTree limit levels) place := by
  induction levels generalizing place with
  | zero => exact .of_head (.tooDeep limit) fun _ _ => rfl
  | succ levels hypothesis =>
      rw [readTree_succ]
      exact .bind (localAt_readHeader place) fun name inside _ =>
        .bind (localAt_readContents hypothesis name inside)
          fun tree closing _ => .expect_bind fun after _ => .pure tree after

/-! ## A limit that allows for more -/

/-- The second outcome is the first one, unless the limit has cut that off. -/
inductive ContinuedBy
    {α : Type}
    (limit : Nat) : Except ReadError α → Except ReadError α → Prop
  | same
      (outcome : Except ReadError α) :
      ContinuedBy limit outcome outcome
  | cutOff
      (position : Nat)
      (other : Except ReadError α) :
      ContinuedBy limit (.error ⟨position, .tooDeep limit⟩) other

theorem ContinuedBy.bind
    {α β : Type}
    {limit : Nat}
    {outcome other : Except ReadError α}
    {next otherNext : α → Except ReadError β}
    (outcomes : ContinuedBy limit outcome other)
    (nexts : ∀ value, ContinuedBy limit (next value) (otherNext value)) :
    ContinuedBy limit (outcome >>= next) (other >>= otherNext) := by
  cases outcomes with
  | cutOff => exact .cutOff _ _
  | same =>
      cases outcome with
      | error error => exact .same _
      | ok value => exact nexts value

theorem continuedBy_readContents
    {limit : Nat}
    {readOperand readFurther : Place → Except ReadError (Expr × Place)}
    (operands : ∀ place,
      ContinuedBy limit (readOperand place) (readFurther place))
    (name : String)
    (inside : Place) :
    ContinuedBy limit (readContents readOperand name inside)
      (readContents readFurther name inside) := by
  unfold readContents
  split
  · exact .same _
  · exact .same _
  · exact (operands inside).bind fun _ => .same _
  · refine (operands inside).bind fun left => ?_
    refine (ContinuedBy.same _).bind fun second => ?_
    exact (operands second).bind fun _ => .same _
  · exact .same _

/-- More levels go on where fewer levels are used up. -/
theorem continuedBy_readTree
    (limit larger : Nat)
    {levels moreLevels : Nat}
    (levels_le : levels ≤ moreLevels)
    (place : Place) :
    ContinuedBy limit (readTree limit levels place)
      (readTree larger moreLevels place) := by
  induction levels generalizing moreLevels place with
  | zero => exact .cutOff place.position _
  | succ levels hypothesis =>
      obtain ⟨moreLevels, rfl⟩ :=
        Nat.exists_eq_add_of_le' (Nat.le_of_add_left_le levels_le)
      rw [readTree_succ, readTree_succ]
      refine (ContinuedBy.same _).bind fun header => ?_
      refine ContinuedBy.bind ?_ fun _ => .same _
      exact continuedBy_readContents
        (hypothesis (Nat.le_of_succ_le_succ levels_le)) header.1 header.2

theorem continuedBy_read
    {maxDepth larger : Nat}
    (maxDepth_le : maxDepth ≤ larger)
    (text : String) :
    ContinuedBy maxDepth (read maxDepth text) (read larger text) :=
  (continuedBy_readTree maxDepth larger (Nat.succ_le_succ maxDepth_le)
    (.start text.toList)).bind fun _ => .same _

/-! ## The whole reader -/

/-- Another text is the same up to a position if it has the same characters up
to there, and is the same text where the position is behind its end. -/
theorem sameUpTo_start
    {text other : List Char}
    {position : Nat}
    (shared : other.take position = text.take position)
    (atEnd : position = text.length + 1 → other = text)
    (bound : position ≤ text.length + 1) :
    (Place.start text).SameUpTo position (.start other) where
  position_eq := rfl
  getElem?_eq := by
    intro index within
    rcases Nat.lt_or_ge index text.length with inside | outside
    · have index_lt : index < position := by
        simp only [Place.start] at within
        omega
      have taken := congrArg (·[index]?) shared
      simp only [List.getElem?_take_of_lt index_lt] at taken
      exact taken
    · simp only [Place.start] at within
      rw [atEnd (by omega)]

theorem read_error_bounds_and_local
    {maxDepth : Nat}
    {text : String}
    {error : ReadError}
    (failed : read maxDepth text = .error error) :
    1 ≤ error.position ∧ error.position ≤ text.toList.length + 1 ∧
      ∀ other : String,
        (Place.start text.toList).SameUpTo error.position
          (.start other.toList) →
        read maxDepth other = .error error := by
  have readLocal :=
    localAt_readTree maxDepth (maxDepth + 1) (.start text.toList)
  rcases bind_eq_error_iff.mp failed with
    treeFailed | ⟨⟨tree, after⟩, treeRead, trailing⟩
  · have bounds := readLocal.bounds error treeFailed
    refine ⟨bounds.1, ?_, ?_⟩
    · rw [Nat.add_comm]
      exact bounds.2
    · intro other same
      exact bind_eq_error_iff.mpr
        (Or.inl (readLocal.error error treeFailed _ same))
  · obtain ⟨written, spans, decided⟩ := readLocal.ok tree after treeRead
    have passed := spans.position_le
    simp only [Place.start] at passed
    simp only at trailing
    split at trailing
    · cases trailing
    · rename_i goesOn
      cases trailing
      have rest_pos : 0 < after.rest.length :=
        List.length_pos_iff.mpr (by simpa using goesOn)
      refine ⟨passed.1, ?_, ?_⟩
      · simp only [Place.error]
        omega
      · intro other same
        obtain ⟨behind, otherSpans, sameBehind⟩ :=
          same.advance spans (Nat.le_succ _)
        refine bind_eq_error_iff.mpr
          (Or.inr ⟨(tree, behind), decided _ behind otherSpans, ?_⟩)
        have behindGoesOn : ¬behind.rest.isEmpty := by
          have head_eq := sameBehind.head?_eq (Nat.le_refl _)
          rw [List.isEmpty_iff, ← List.head?_eq_none_iff, head_eq,
            List.head?_eq_none_iff, ← List.isEmpty_iff]
          exact goesOn
        simp only [if_neg behindGoesOn, Place.error, sameBehind.position_eq]

/-- An error of the reader lies within the text or just behind it. It is decided
by the limit and the characters up to its position: every text that shares them,
which behind the end is the text alone, gives the same error. Unless the limit
itself is the error, every larger limit gives it too. -/
theorem read_error_is_local
    {maxDepth : Nat}
    {text : String}
    {error : ReadError}
    (failed : read maxDepth text = .error error) :
    1 ≤ error.position ∧ error.position ≤ text.length + 1 ∧
    (∀ other : String,
      other.toList.take error.position = text.toList.take error.position →
      (error.position = text.length + 1 → other = text) →
      read maxDepth other = .error error) ∧
    (error.fault ≠ .tooDeep maxDepth →
      ∀ larger, maxDepth ≤ larger → read larger text = .error error) := by
  obtain ⟨positive, bound, decided⟩ := read_error_bounds_and_local failed
  rw [← String.length_toList]
  refine ⟨positive, bound, ?_, ?_⟩
  · intro other shared atEnd
    refine decided other (sameUpTo_start shared ?_ bound)
    intro behind
    rw [atEnd behind]
  · intro notTooDeep larger maxDepth_le
    have continued := continuedBy_read maxDepth_le text
    rw [failed] at continued
    generalize read larger text = outcome at continued
    cases continued with
    | same => rfl
    | cutOff => exact absurd rfl notTooDeep

/-- An escape without a meaning is the error, whatever the text behind it and
however deep expressions may be. -/
theorem read_error_is_local_at_escape :
    read 1 "NOT\x7bID\x7b\"a\\q\"\x7d\x7d" =
        .error ⟨11, .invalidEscape 'q'⟩ ∧
    read 1 "NOT\x7bID\x7b\"a\\q\"\x7d,VAL\x7b" =
        .error ⟨11, .invalidEscape 'q'⟩ ∧
    read 7 "NOT\x7bID\x7b\"a\\q\"\x7d\x7d" =
        .error ⟨11, .invalidEscape 'q'⟩ := by
  have failed :
      read 1 "NOT\x7bID\x7b\"a\\q\"\x7d\x7d" =
        .error ⟨11, .invalidEscape 'q'⟩ := by
    decide +kernel
  obtain ⟨-, -, sameText, sameLimit⟩ := read_error_is_local failed
  exact ⟨failed, sameText _ (by decide) (by decide),
    sameLimit (by decide) 7 (by decide)⟩

end Canonical
end FilterLang
