import FilterLang.Proofs.CanonicalFormat

/-!
# Canonical forms are read back

The canonical form of every expression is in the canonical format, whichever
characters are hidden, so it is read back to the same expression. An expression
beyond the limit on depth is refused for that reason and no other.
-/

namespace FilterLang
namespace Canonical

/-! ## Canonical forms are in the format -/

theorem isDigit_digitChar
    {value : Nat}
    (bound : value < 16) :
    IsDigit value.digitChar value := by
  have digits :
      ∀ value < 16, ∃ alphabet ∈ digitAlphabets,
        alphabet[value]? = some value.digitChar := by
    decide
  exact digits value bound

/-- The digits of a number write that number. -/
theorem writesNumber_hexDigits (number : Nat) :
    WritesNumber (Numeral.hexDigits number) number := by
  unfold Numeral.hexDigits
  -- On the number, which has one digit more than its sixteenth.
  induction number using Nat.strongRecOn with
  | ind number hypothesis =>
      rw [Nat.toDigits_eq_if (by decide)]
      split
      · rename_i small
        exact .single (isDigit_digitChar small)
      · rename_i large
        have written := hypothesis (number / 16) (by omega)
        have lastDigit : number % 16 < 16 := Nat.mod_lt number (by decide)
        have appended := written.append (isDigit_digitChar lastDigit)
        rwa [Nat.div_add_mod] at appended

theorem writesItem_byCodePoint (character : Char) :
    WritesItem (Quoted.byCodePoint character) character :=
  .codePoint (writesNumber_hexDigits character.toNat)

theorem writesItem_escape
    (hidden : Char → Bool)
    (character : Char) :
    WritesItem (Quoted.escape hidden character) character := by
  unfold Quoted.escape
  split
  · exact .escape (by decide)
  · exact .escape (by decide)
  · exact .escape (by decide)
  · exact .escape (by decide)
  · exact .escape (by decide)
  · exact .escape (by decide)
  · rename_i notQuote notBackslash _ _ _ _
    split
    · exact writesItem_byCodePoint character
    · exact .plain notQuote notBackslash

theorem writesText_encode
    (hidden : Char → Bool)
    (text : String) :
    WritesText (Quoted.encode hidden text.toList) text := by
  refine .quoted ?_
  induction text.toList with
  | nil => exact .nil
  | cons character characters hypothesis =>
      rw [List.flatMap_cons]
      exact .cons (writesItem_escape hidden character) hypothesis

/-- The canonical form is in the canonical format. -/
theorem writesTree_canonical
    (hidden : Char → Bool)
    (tree : Expr) :
    WritesTree (tree.canonical hidden) tree := by
  induction tree with
  | identifier name => exact .identifier (writesText_encode hidden name)
  | literal value => exact .literal (writesText_encode hidden value)
  | not child hypothesis => exact .not hypothesis
  | binary op left right leftHypothesis rightHypothesis =>
      exact .binary leftHypothesis rightHypothesis

/-! ## Reading them back -/

/-- Reading goes wrong at a place because an expression is too deep. -/
def TooDeep
    (limit : Nat)
    (outcome : Except ReadError (Expr × Place)) : Prop :=
  ∃ position, outcome = .error ⟨position, .tooDeep limit⟩

theorem TooDeep.bind
    {limit : Nat}
    {first : Except ReadError (Expr × Place)}
    {next : Expr × Place → Except ReadError (Expr × Place)}
    (failed : TooDeep limit first) :
    TooDeep limit (first >>= next) := by
  obtain ⟨position, rfl⟩ := failed
  exact ⟨position, rfl⟩

/-- Where the canonical format writes an expression that is too deep for the
levels, reading goes wrong for this reason. -/
theorem readTree_tooDeep
    {limit levels : Nat}
    {tree : Expr}
    {written : List Char}
    {place next : Place}
    (writes : WritesTree written tree)
    (deep : levels ≤ tree.depth)
    (spans : place.Spans written next) :
    TooDeep limit (readTree limit levels place) := by
  induction levels generalizing tree written place next with
  | zero => exact ⟨place.position, rfl⟩
  | succ levels hypothesis =>
      obtain ⟨contents, rfl, contentsWritten⟩ := writesTree_iff.mp writes
      obtain ⟨inside, closing, header, contentsSpan, -⟩ :=
        spans_braced_iff.mp spans
      obtain ⟨named, opened⟩ := spans_header_iff.mp header
      unfold readTree
      rw [opened, ← named]
      refine TooDeep.bind ?_
      unfold readContents
      rw [TokenKind.ofName?_name]
      cases tree with
      | identifier name => simp at deep
      | literal value => simp at deep
      | not child =>
          rw [Expr.depth_not] at deep
          refine TooDeep.bind ?_
          exact hypothesis contentsWritten (by omega) contentsSpan
      | binary op left right =>
          rw [Expr.depth_binary] at deep
          obtain ⟨front, back, rfl, leftWrites, rightWrites⟩ := contentsWritten
          obtain ⟨comma, frontSpans, laterSpans⟩ :=
            Place.spans_append.mp contentsSpan
          obtain ⟨second, commaSpans, backSpans⟩ :=
            Place.spans_cons.mp laterSpans
          by_cases leftDeep : levels ≤ left.depth
          · refine TooDeep.bind ?_
            exact hypothesis leftWrites leftDeep frontSpans
          · have leftRead := (readsLevels_readTree limit levels _ _ _).mpr
              ⟨Nat.lt_of_not_le leftDeep, front, leftWrites, frontSpans⟩
            have commaRead := Place.expect_eq_ok_iff.mpr commaSpans
            simp only [Expr.kind, leftRead, ok_bind, commaRead]
            refine TooDeep.bind ?_
            exact hypothesis rightWrites (by omega) backSpans

/-- A canonical form is read back, or refused as too deep. -/
theorem read_canonical
    (hidden : Char → Bool)
    (maxDepth : Nat)
    (tree : Expr) :
    ∃ position,
      read maxDepth (String.ofList (tree.canonical hidden)) =
        if tree.depth ≤ maxDepth then
          .ok tree
        else
          .error ⟨position, .tooDeep maxDepth⟩ := by
  have writes := writesTree_canonical hidden tree
  split
  · rename_i bound
    refine ⟨1, read_eq_ok_iff.mpr ⟨?_, bound⟩⟩
    rwa [String.toList_ofList]
  · rename_i deep
    obtain ⟨next, spans, -⟩ :=
      spans_start_iff.mpr (Eq.refl (tree.canonical hidden))
    obtain ⟨position, failed⟩ : TooDeep maxDepth
        (readTree maxDepth (maxDepth + 1) (.start (tree.canonical hidden))) :=
      readTree_tooDeep writes (Nat.lt_of_not_le deep) spans
    refine ⟨position, ?_⟩
    unfold read
    rw [String.toList_ofList, failed]
    rfl

theorem canonical_injective
    {hidden : Char → Bool}
    {left right : Expr}
    (same : left.canonical hidden = right.canonical hidden) :
    left = right := by
  obtain ⟨_, leftRead⟩ :=
    read_canonical hidden (max left.depth right.depth) left
  obtain ⟨_, rightRead⟩ :=
    read_canonical hidden (max left.depth right.depth) right
  rw [if_pos (Nat.le_max_left _ _)] at leftRead
  rw [if_pos (Nat.le_max_right _ _)] at rightRead
  rw [same, rightRead, Except.ok.injEq] at leftRead
  exact leftRead.symm

/-- Whichever characters are hidden, every expression within the limit on depth
is read back from its canonical form, every other one is refused for its depth,
and different expressions have different canonical forms. -/
theorem canonical_round_trip (hidden : Char → Bool) :
    (∀ (maxDepth : Nat) (tree : Expr),
      ∃ error : ReadError,
        error.fault = .tooDeep maxDepth ∧
        error.fault.message =
          "tree nesting exceeds the maximum depth of " ++ maxDepth.repr ∧
        read maxDepth (String.ofList (tree.canonical hidden)) =
          if tree.depth ≤ maxDepth then .ok tree else .error error) ∧
    ∀ left right : Expr,
      left.canonical hidden = right.canonical hidden ↔ left = right := by
  refine ⟨?_, ?_⟩
  · intro maxDepth tree
    obtain ⟨position, outcome⟩ := read_canonical hidden maxDepth tree
    exact ⟨⟨position, .tooDeep maxDepth⟩, rfl, rfl, outcome⟩
  · intro left right
    refine ⟨canonical_injective, ?_⟩
    rintro rfl
    rfl

end Canonical
end FilterLang
