import FilterLang.Lexeme.LexicalClass
import FilterLang.Proofs.StandardRules

/-!
# Rules that recognise something at one place

Two rules can both recognise something at one place only if a piece of either can
start with the character there, and few pairs of rules are like that. Which rule
applies is therefore decided by the order of these pairs alone, whatever the
order of the table is otherwise: `KeepsOverlapOrder.firstMatch?_eq_some_iff`.
-/

namespace FilterLang
namespace RuleTable

open LexicalClass

/-- The pairs of rules that can both recognise something at one place. The first
of a pair is tried before the second. -/
def overlaps : List (LexicalClass × LexicalClass) :=
  [(.token (.comparison .lessEqual), .token (.comparison .lessThan)),
    (.token (.comparison .greaterEqual), .token (.comparison .greaterThan)),
    (.token .and, .token .identifier), (.token .or, .token .identifier),
    (.token .not, .token .identifier)]

theorem mem_standard (lexicalClass : LexicalClass) :
    lexicalClass ∈ standard := by
  cases lexicalClass with
  | blank => decide
  | token kind =>
      cases kind with
      | operator operator =>
          cases operator with
          | not => decide
          | binary op =>
              cases op with
              | comparison kind => cases kind <;> decide
              | and => decide
              | or => decide
      | identifier => decide
      | literal => decide
      | openParen => decide
      | closeParen => decide

theorem ascii_of_starts
    {lexicalClass : LexicalClass}
    {character : Char}
    (canStart : lexicalClass.starts character) :
    character.toNat < 128 := by
  have letter
      (name : String)
      (asciiFirst : name.toList.head?.all (·.toNat < 128))
      (isFirst : name.toList.head?.any (sameLetter · character)) :
      character.toNat < 128 := by
    rw [Option.any_eq_true] at isFirst
    obtain ⟨capital, first, same⟩ := isFirst
    have same_eq : capital = character.toUpper := of_decide_eq_true same
    apply ascii_of_toUpper
    rw [first] at asciiFirst
    rw [← same_eq]
    exact of_decide_eq_true asciiFirst
  have mark
      {mark : Char}
      (ascii : mark.toNat < 128)
      (isMark : decide (mark = character)) :
      character.toNat < 128 := by
    rwa [← of_decide_eq_true isMark]
  cases lexicalClass with
  | blank =>
      simp only [starts, isBlank, Bool.or_eq_true, decide_eq_true_eq]
        at canStart
      rcases canStart with (((rfl | rfl) | rfl) | rfl) | rfl <;> decide
  | token kind =>
      cases kind with
      | operator operator =>
          cases operator with
          | not => exact letter "NOT" (by decide) canStart
          | binary op =>
              cases op with
              | comparison kind =>
                  cases kind <;> exact mark (by decide) canStart
              | and => exact letter "AND" (by decide) canStart
              | or => exact letter "OR" (by decide) canStart
      | identifier => exact ascii_of_isAlpha canStart
      | literal =>
          simp only [starts, Bool.or_eq_true, decide_eq_true_eq] at canStart
          rcases canStart with (isDigit | rfl) | rfl
          · exact ascii_of_isAlphanum (by simp [Char.isAlphanum, isDigit])
          · decide
          · decide
      | openParen => exact mark (by decide) canStart
      | closeParen => exact mark (by decide) canStart

theorem starts_of_scan?
    {lexicalClass : LexicalClass}
    {character : Char}
    {text : List Char}
    {scan : Scan}
    (recognised : lexicalClass.scan? (character :: text) = some scan) :
    lexicalClass.starts character := by
  cases starts : lexicalClass.starts character with
  | true => rfl
  | false =>
      rw [scan?_eq_none_of_starts text starts] at recognised
      simp at recognised

/-- Of the rules whose pieces can start with one character, each two overlap. -/
theorem overlap_of_starts
    {first second : LexicalClass}
    {character : Char}
    (different : first ≠ second)
    (firstStarts : first.starts character)
    (secondStarts : second.starts character) :
    (first, second) ∈ overlaps ∨ (second, first) ∈ overlaps := by
  have checked :
      ∀ first ∈ standard.filter (·.starts character),
        ∀ second ∈ standard.filter (·.starts character),
          first = second ∨
            (first, second) ∈ overlaps ∨ (second, first) ∈ overlaps :=
    of_ascii
      (fun character => ∀ first ∈ standard.filter (·.starts character),
        ∀ second ∈ standard.filter (·.starts character),
          first = second ∨
            (first, second) ∈ overlaps ∨ (second, first) ∈ overlaps)
      (by decide +kernel) (ascii_of_starts firstStarts)
  have sameOrOverlap := checked
    first (List.mem_filter.mpr ⟨mem_standard first, firstStarts⟩)
    second (List.mem_filter.mpr ⟨mem_standard second, secondStarts⟩)
  exact sameOrOverlap.resolve_left different

/-- Two rules that recognise something at one place are a pair that overlaps. -/
theorem overlap_of_scan?
    {text : List Char}
    {first second : LexicalClass}
    {firstScan secondScan : Scan}
    (different : first ≠ second)
    (firstRecognised : first.scan? text = some firstScan)
    (secondRecognised : second.scan? text = some secondScan) :
    (first, second) ∈ overlaps ∨ (second, first) ∈ overlaps := by
  cases text with
  | nil =>
      have shorter := (divides_of_scan? firstRecognised).length_rest_lt
      exact absurd shorter (Nat.not_lt_zero _)
  | cons character text =>
      exact overlap_of_starts different (starts_of_scan? firstRecognised)
        (starts_of_scan? secondRecognised)

/-! ## Tables in another order -/

/-- One rule of a table is tried before another. -/
def TriedBefore
    (rules : RuleTable)
    (earlier later : LexicalClass) : Prop :=
  earlier ∈ rules.takeWhile (· != later)

instance (rules : RuleTable) (earlier later : LexicalClass) :
    Decidable (rules.TriedBefore earlier later) :=
  inferInstanceAs (Decidable (earlier ∈ rules.takeWhile (· != later)))

theorem triedBefore_append_cons
    {earlier later : RuleTable}
    {lexicalClass other : LexicalClass}
    (notEarlier : lexicalClass ∉ earlier) :
    TriedBefore (earlier ++ lexicalClass :: later) other lexicalClass ↔
      other ∈ earlier := by
  have different : ∀ rule ∈ earlier, (rule != lexicalClass) = true := by
    intro rule member
    rw [bne_iff_ne]
    rintro rfl
    exact notEarlier member
  rw [TriedBefore, List.takeWhile_append_of_pos different,
    List.takeWhile_cons_of_neg (by simp), List.append_nil]

theorem TriedBefore.asymm
    {rules : RuleTable}
    {earlier later : LexicalClass}
    (before : rules.TriedBefore earlier later) :
    ¬rules.TriedBefore later earlier := by
  unfold TriedBefore at before ⊢
  induction rules with
  | nil => exact List.not_mem_nil
  | cons rule rules hypothesis =>
      rw [List.takeWhile_cons] at before ⊢
      grind

/-- A table has the standard rules, in an order in which of two rules that
overlap the same one is tried first. -/
structure KeepsOverlapOrder (rules : RuleTable) : Prop where
  perm : rules.Perm standard
  inOrder : ∀ pair ∈ overlaps, rules.TriedBefore pair.1 pair.2

theorem keepsOverlapOrder_standard : KeepsOverlapOrder standard :=
  ⟨.refl standard, by decide⟩

/-- A rule applies when it recognises something and no overlapping rule before it
does. -/
theorem KeepsOverlapOrder.firstMatch?_eq_some_iff
    {rules : RuleTable}
    {text : List Char}
    {lexicalClass : LexicalClass}
    {scan : Scan}
    (keepsOrder : rules.KeepsOverlapOrder) :
    rules.firstMatch? text = some (lexicalClass, scan) ↔
      lexicalClass.scan? text = some scan ∧
        ∀ other, (other, lexicalClass) ∈ overlaps →
          other.scan? text = none := by
  constructor
  · intro matched
    refine ⟨(scan?_of_firstMatch? matched).2, ?_⟩
    intro other overlap
    exact unrecognised_of_firstMatch? matched (keepsOrder.inOrder _ overlap)
  · rintro ⟨recognised, unrecognised⟩
    have member : lexicalClass ∈ rules :=
      keepsOrder.perm.mem_iff.mpr (mem_standard lexicalClass)
    obtain ⟨earlier, later, rfl, notEarlier⟩ :=
      List.eq_append_cons_of_mem member
    refine RuleTable.firstMatch?_eq_some_iff.mpr
      ⟨earlier, later, rfl, recognised, ?_⟩
    intro other otherEarlier
    rw [Option.eq_none_iff_forall_ne_some]
    intro otherScan otherRecognised
    have different : other ≠ lexicalClass := by
      rintro rfl
      exact notEarlier otherEarlier
    rcases overlap_of_scan? different otherRecognised recognised with
      overlap | overlap
    · rw [unrecognised other overlap] at otherRecognised
      simp at otherRecognised
    · exact (keepsOrder.inOrder _ overlap).asymm
        ((triedBefore_append_cons notEarlier).mpr otherEarlier)

theorem firstMatch?_eq_some_iff_overlaps
    {text : List Char}
    {lexicalClass : LexicalClass}
    {scan : Scan} :
    standard.firstMatch? text = some (lexicalClass, scan) ↔
      lexicalClass.scan? text = some scan ∧
        ∀ other, (other, lexicalClass) ∈ overlaps →
          other.scan? text = none :=
  keepsOverlapOrder_standard.firstMatch?_eq_some_iff

/-- The order of rules that do not overlap makes no difference. -/
theorem KeepsOverlapOrder.firstMatch?_eq
    {rules : RuleTable}
    (keepsOrder : rules.KeepsOverlapOrder)
    (text : List Char) :
    rules.firstMatch? text = standard.firstMatch? text := by
  apply Option.ext
  rintro ⟨lexicalClass, scan⟩
  rw [keepsOrder.firstMatch?_eq_some_iff, firstMatch?_eq_some_iff_overlaps]

end RuleTable
end FilterLang
