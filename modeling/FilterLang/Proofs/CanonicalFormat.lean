import FilterLang.Canonical.Reader
import FilterLang.Canonical.Render
import FilterLang.Proofs.QuotedText

/-!
# Expressions are read by their canonical format

The reader takes exactly what the canonical format allows, up to the limit on
depth. One level of an expression is its kind and what stands between its
braces; the operands between the braces are read with one level less.
-/

namespace FilterLang
namespace Canonical

/-! ## One level of an expression -/

/-- Characters write what stands between the braces of an expression. -/
def WritesContents
    (contents : List Char) : Expr → Prop
  | .identifier name => WritesText contents name
  | .literal value => WritesText contents value
  | .not child => WritesTree contents child
  | .binary _ left right =>
      ∃ front back, contents = front ++ ',' :: back ∧
        WritesTree front left ∧ WritesTree back right

/-- An expression is written as its kind and its contents between braces. -/
theorem writesTree_iff
    {written : List Char}
    {tree : Expr} :
    WritesTree written tree ↔
      ∃ contents, written = Expr.braced tree.kind contents ∧
        WritesContents contents tree := by
  constructor
  · intro writes
    cases writes with
    | identifier nameWritten => exact ⟨_, rfl, nameWritten⟩
    | literal valueWritten => exact ⟨_, rfl, valueWritten⟩
    | not childWritten => exact ⟨_, rfl, childWritten⟩
    | binary leftWritten rightWritten =>
        exact ⟨_, rfl, _, _, rfl, leftWritten, rightWritten⟩
  · rintro ⟨contents, rfl, writes⟩
    cases tree with
    | identifier name => exact .identifier writes
    | literal value => exact .literal writes
    | not child => exact .not writes
    | binary op left right =>
        obtain ⟨front, back, rfl, leftWritten, rightWritten⟩ := writes
        exact .binary leftWritten rightWritten

/-- The kind in front of a brace is the longest run of capital letters. -/
theorem spans_header_iff
    {place inside : Place}
    {kind : TokenKind} :
    place.Spans (kind.name.toList ++ ['{']) inside ↔
      kind.name = String.ofList (place.rest.takeWhile Char.isUpper) ∧
        (place.skip Char.isUpper).expect '{' = .ok inside := by
  rw [Place.spans_append, Place.expect_eq_ok_iff]
  constructor
  · rintro ⟨brace, spans, opened⟩
    obtain ⟨rest, atBrace, -⟩ := Place.spans_singleton.mp opened
    have stops : StopsRun Char.isUpper brace.rest := by
      rw [atBrace]
      simp [StopsRun]
    obtain ⟨taken, skipped⟩ := spans.skip_eq
      (fun _ member => TokenKind.isUpper_of_mem_name member) stops
    rw [taken, skipped, String.ofList_toList]
    exact ⟨rfl, opened⟩
  · rintro ⟨named, opened⟩
    refine ⟨_, ?_, opened⟩
    rw [named, String.toList_ofList]
    exact place.spans_skip Char.isUpper

theorem spans_braced_iff
    {place next : Place}
    {kind : TokenKind}
    {contents : List Char} :
    place.Spans (Expr.braced kind contents) next ↔
      ∃ inside closing,
        place.Spans (kind.name.toList ++ ['{']) inside ∧
          inside.Spans contents closing ∧ closing.Spans ['}'] next := by
  have parts :
      Expr.braced kind contents =
        (kind.name.toList ++ ['{']) ++ (contents ++ ['}']) := by
    simp [Expr.braced]
  rw [parts, Place.spans_append]
  constructor
  · rintro ⟨inside, header, later⟩
    obtain ⟨closing, spans, closed⟩ := Place.spans_append.mp later
    exact ⟨inside, closing, header, spans, closed⟩
  · rintro ⟨inside, closing, header, spans, closed⟩
    exact ⟨inside, header, Place.spans_append.mpr ⟨closing, spans, closed⟩⟩

/-- A reader of operands takes exactly the expressions with so many levels. -/
def ReadsLevels
    (readOperand : Place → Except ReadError (Expr × Place))
    (levels : Nat) : Prop :=
  ∀ place tree next,
    readOperand place = .ok (tree, next) ↔
      tree.depth < levels ∧
        ∃ written, WritesTree written tree ∧ place.Spans written next

theorem writesContents_of_readContents
    {readOperand : Place → Except ReadError (Expr × Place)}
    {levels : Nat}
    {name : String}
    {inside closing : Place}
    {tree : Expr}
    (readsOperand : ReadsLevels readOperand levels)
    (read : readContents readOperand name inside = .ok (tree, closing)) :
    tree.kind.name = name ∧ tree.depth < levels + 1 ∧
      ∃ contents, WritesContents contents tree ∧
        inside.Spans contents closing := by
  unfold ReadsLevels at readsOperand
  unfold readContents at read
  split at read
  all_goals
    simp only [bind_eq_ok_iff, Prod.exists, readText_eq_ok_iff, readsOperand,
      Place.expect_eq_ok_iff, pure, Except.pure, Except.ok.injEq,
      Prod.mk.injEq, reduceCtorEq] at read
  all_goals rename_i found
  · obtain ⟨text, _, ⟨written, writes, spans⟩, rfl, rfl⟩ := read
    exact ⟨TokenKind.ofName?_eq_some_iff.mp found, Nat.succ_pos levels,
      written, writes, spans⟩
  · obtain ⟨text, _, ⟨written, writes, spans⟩, rfl, rfl⟩ := read
    exact ⟨TokenKind.ofName?_eq_some_iff.mp found, Nat.succ_pos levels,
      written, writes, spans⟩
  · obtain ⟨child, _, ⟨bound, written, writes, spans⟩, rfl, rfl⟩ := read
    exact ⟨TokenKind.ofName?_eq_some_iff.mp found, Nat.succ_lt_succ bound,
      written, writes, spans⟩
  · obtain ⟨left, comma, ⟨leftBound, front, leftWrites, frontSpans⟩, second,
      commaSpans, right, _, ⟨rightBound, back, rightWrites, backSpans⟩, rfl,
      rfl⟩ := read
    refine ⟨TokenKind.ofName?_eq_some_iff.mp found, ?_, front ++ ',' :: back,
      ⟨front, back, rfl, leftWrites, rightWrites⟩, ?_⟩
    · rw [Expr.depth_binary]
      omega
    · exact Place.spans_append.mpr ⟨comma, frontSpans,
        Place.spans_cons.mpr ⟨second, commaSpans, backSpans⟩⟩

theorem readContents_of_writesContents
    {readOperand : Place → Except ReadError (Expr × Place)}
    {levels : Nat}
    {inside closing : Place}
    {tree : Expr}
    {contents : List Char}
    (readsOperand : ReadsLevels readOperand levels)
    (bound : tree.depth < levels + 1)
    (writes : WritesContents contents tree)
    (spans : inside.Spans contents closing) :
    readContents readOperand tree.kind.name inside = .ok (tree, closing) := by
  unfold ReadsLevels at readsOperand
  unfold readContents
  rw [TokenKind.ofName?_name]
  cases tree with
  | identifier text =>
      simp only [Expr.kind, bind_eq_ok_iff, Prod.exists, readText_eq_ok_iff]
      exact ⟨text, closing, ⟨contents, writes, spans⟩, rfl⟩
  | literal text =>
      simp only [Expr.kind, bind_eq_ok_iff, Prod.exists, readText_eq_ok_iff]
      exact ⟨text, closing, ⟨contents, writes, spans⟩, rfl⟩
  | not child =>
      simp only [Expr.kind, bind_eq_ok_iff, Prod.exists, readsOperand]
      rw [Expr.depth_not] at bound
      exact ⟨child, closing, ⟨by omega, contents, writes, spans⟩, rfl⟩
  | binary op left right =>
      simp only [Expr.kind, bind_eq_ok_iff, Prod.exists, readsOperand,
        Place.expect_eq_ok_iff]
      rw [Expr.depth_binary] at bound
      obtain ⟨front, back, rfl, leftWrites, rightWrites⟩ := writes
      obtain ⟨comma, frontSpans, laterSpans⟩ := Place.spans_append.mp spans
      obtain ⟨second, commaSpans, backSpans⟩ := Place.spans_cons.mp laterSpans
      exact ⟨left, comma, ⟨by omega, front, leftWrites, frontSpans⟩, second,
        commaSpans, right, closing,
        ⟨by omega, back, rightWrites, backSpans⟩, rfl⟩

theorem readContents_eq_ok_iff
    {readOperand : Place → Except ReadError (Expr × Place)}
    {levels : Nat}
    {name : String}
    {inside closing : Place}
    {tree : Expr}
    (readsOperand : ReadsLevels readOperand levels) :
    readContents readOperand name inside = .ok (tree, closing) ↔
      tree.kind.name = name ∧ tree.depth < levels + 1 ∧
        ∃ contents, WritesContents contents tree ∧
          inside.Spans contents closing := by
  constructor
  · exact writesContents_of_readContents readsOperand
  · rintro ⟨rfl, bound, contents, writes, spans⟩
    exact readContents_of_writesContents readsOperand bound writes spans

/-! ## Whole expressions -/

/-- Whatever the limit is, exactly the expressions with so many levels are
read. -/
theorem readsLevels_readTree (limit levels : Nat) :
    ReadsLevels (readTree limit levels) levels := by
  -- On the levels; what stands between the braces has one level less.
  induction levels with
  | zero =>
      intro place tree next
      simp [readTree]
  | succ levels hypothesis =>
      intro place tree next
      simp only [readTree, bind_eq_ok_iff, Prod.exists,
        readContents_eq_ok_iff hypothesis, pure, Except.pure, Except.ok.injEq,
        Prod.mk.injEq]
      constructor
      · rintro ⟨inside, opened, _, closing,
          ⟨named, bound, contents, writes, spans⟩, _, closed, rfl, rfl⟩
        have header := spans_header_iff.mpr ⟨named, opened⟩
        have closingBrace := Place.expect_eq_ok_iff.mp closed
        exact ⟨bound, _, writesTree_iff.mpr ⟨contents, rfl, writes⟩,
          spans_braced_iff.mpr ⟨inside, closing, header, spans, closingBrace⟩⟩
      · rintro ⟨bound, _, written, spans⟩
        obtain ⟨contents, rfl, writes⟩ := writesTree_iff.mp written
        obtain ⟨inside, closing, header, spans, closingBrace⟩ :=
          spans_braced_iff.mp spans
        obtain ⟨named, opened⟩ := spans_header_iff.mp header
        exact ⟨inside, opened, tree, closing,
          ⟨named, bound, contents, writes, spans⟩, next,
          Place.expect_eq_ok_iff.mpr closingBrace, rfl, rfl⟩

theorem spans_start_iff
    {text written : List Char} :
    (∃ next, (Place.start text).Spans written next ∧ next.rest = []) ↔
      written = text := by
  constructor
  · rintro ⟨next, ⟨rest, -⟩, ended⟩
    rw [ended, List.append_nil] at rest
    exact rest.symm
  · rintro rfl
    refine ⟨⟨1 + written.length, []⟩, ⟨?_, rfl⟩, rfl⟩
    rw [List.append_nil]
    rfl

theorem read_eq_ok_iff
    {maxDepth : Nat}
    {text : String}
    {tree : Expr} :
    read maxDepth text = .ok tree ↔
      WritesTree text.toList tree ∧ tree.depth ≤ maxDepth := by
  simp only [read, bind_eq_ok_iff, Prod.exists,
    readsLevels_readTree maxDepth (maxDepth + 1) _ _ _]
  constructor
  · rintro ⟨_, next, ⟨bound, written, writes, spans⟩, answer⟩
    split at answer
    · rename_i ended
      simp only [pure, Except.pure, Except.ok.injEq] at answer
      subst answer
      obtain rfl := spans_start_iff.mp ⟨next, spans, List.isEmpty_iff.mp ended⟩
      exact ⟨writes, by omega⟩
    · simp at answer
  · rintro ⟨writes, bound⟩
    obtain ⟨next, spans, ended⟩ := spans_start_iff.mpr (Eq.refl text.toList)
    refine ⟨tree, next, ⟨by omega, _, writes, spans⟩, ?_⟩
    rw [if_pos (List.isEmpty_iff.mpr ended)]
    rfl

/-- The reader accepts exactly the canonical format, within the limit on depth,
and answers with the expression that is written. On any other text it fails. -/
theorem read_exact_for_format
    (maxDepth : Nat)
    (text : String) :
    (∀ tree,
      read maxDepth text = .ok tree ↔
        WritesTree text.toList tree ∧ tree.depth ≤ maxDepth) ∧
    ((∃ error, read maxDepth text = .error error) ↔
      ¬∃ tree, WritesTree text.toList tree ∧ tree.depth ≤ maxDepth) := by
  refine ⟨fun tree => read_eq_ok_iff, ?_⟩
  simp only [error_iff_not_ok, read_eq_ok_iff]

end Canonical
end FilterLang
