import FilterLang.Proofs.FailedReduction
import FilterLang.Proofs.StepwiseReduction

/-!
# Subexpressions stay within the limit

At every point of a reduction, in the row that is worked on and in all rows that
wait, every subexpression carries its depth and is no deeper than the limit. The
rows that wait are as many as the groups around the row, and a row with more
groups around it than the limit is given up at once. So an error cannot have
been met inside of more groups than that, either.
-/

namespace FilterLang

/-! ## Rows -/

/-- The subexpression in a slot. -/
def Slot.subtree? : Slot → Option Subtree
  | token _ => none
  | node subtree => some subtree
  | group subtree => some subtree

theorem Slot.subtree?_of_operand
    {operator : Operator}
    {side : Side}
    {slot : Slot}
    {subtree : Subtree}
    (taken : slot.operand operator side = .ok subtree) :
    slot.subtree? = some subtree := by
  rcases operand_eq_ok_iff.mp taken with ⟨rfl, -⟩ | ⟨rfl, -⟩
  · rfl
  · rfl

namespace Row

variable {limit : Nat} {row next : Row}

/-- Every subexpression of a row carries its depth, and the limit allows for
it. -/
def Sound
    (limit : Nat)
    (row : Row) : Prop :=
  ∀ slot ∈ row, ∀ subtree ∈ slot.subtree?, subtree.Sound limit

theorem sound_ofTokens
    (limit : Nat)
    (tokens : List Token) :
    Sound limit (ofTokens tokens) := by
  intro slot member
  obtain ⟨token, -, rfl⟩ := List.mem_map.mp member
  rintro subtree ⟨⟩

theorem Sound.subset
    (sound : row.Sound limit)
    (fewer : next ⊆ row) :
    next.Sound limit :=
  fun slot member => sound slot (fewer member)

/-- A sound subexpression may take the place of some slots. -/
theorem Sound.fill
    {front between back : Row}
    {slot : Slot}
    {subtree : Subtree}
    (sound : Sound limit (front ++ between ++ back))
    (holds : slot.subtree? = some subtree)
    (subtreeSound : subtree.Sound limit) :
    Sound limit (front ++ slot :: back) := by
  intro other member
  rcases List.mem_append.mp member with inFront | inRest
  · exact sound other (by simp [inFront])
  · rcases List.mem_cons.mp inRest with rfl | inBack
    · rw [holds]
      rintro other ⟨⟩
      exact subtreeSound
    · exact sound other (by simp [inBack])

theorem Sound.operand
    {operator : Operator}
    {side : Side}
    {slot : Slot}
    {subtree : Subtree}
    (sound : row.Sound limit)
    (member : slot ∈ row)
    (taken : slot.operand operator side = .ok subtree) :
    subtree.Sound limit :=
  sound slot member subtree (Slot.subtree?_of_operand taken)

theorem Sound.map_toLeaf (sound : row.Sound limit) :
    Sound limit (row.map Slot.toLeaf) := by
  intro leaf leafMember
  obtain ⟨slot, member, rfl⟩ := List.mem_map.mp leafMember
  cases slot with
  | token found =>
      obtain ⟨kind, text, span⟩ := found
      cases kind with
      | identifier =>
          rintro subtree ⟨⟩
          exact Subtree.sound_leaf rfl
      | literal =>
          rintro subtree ⟨⟩
          exact Subtree.sound_leaf rfl
      | operator => exact sound _ member
      | openParen => exact sound _ member
      | closeParen => exact sound _ member
  | node subtree => exact sound _ member
  | group subtree => exact sound _ member

theorem Sound.steps
    {phase : Phase}
    (sound : row.Sound limit)
    (steps : phase.Steps limit row next) :
    next.Sound limit := by
  cases steps with
  | @binary _ _ operator leftSlot rightSlot _ _ front back _ _ _ leftTaken
      rightTaken within =>
      have leftSound := sound.operand (by simp) leftTaken
      have rightSound := sound.operand (by simp) rightTaken
      have row_eq :
          front ++ leftSlot :: .token operator :: rightSlot :: back =
            front ++ [leftSlot, .token operator, rightSlot] ++ back := by
        simp
      rw [row_eq] at sound
      exact sound.fill rfl (Subtree.sound_binary leftSound rightSound within)
  | @negation operator slot _ front back _ _ taken within =>
      have childSound := sound.operand (by simp) taken
      have row_eq :
          front ++ .token operator :: slot :: back =
            front ++ [.token operator, slot] ++ back := by
        simp
      rw [row_eq] at sound
      exact sound.fill rfl (Subtree.sound_not childSound within)

end Row

/-! ## Reductions under way -/

namespace Reduction

/-- The rows that wait are one inside the other, from a row without groups
around it on. -/
def Nested : List Waiting → Nat → Prop
  | [], level => level = 0
  | outer :: waiting, level =>
      level = outer.level + 1 ∧ Nested waiting outer.level

theorem Nested.length_eq
    {waiting : List Waiting}
    {level : Nat}
    (nested : Nested waiting level) :
    waiting.length = level := by
  induction waiting generalizing level with
  | nil => exact nested.symm
  | cons outer waiting hypothesis =>
      rw [List.length_cons, hypothesis nested.2, nested.1]

/-- What holds at every point of a reduction. -/
structure Bounded
    (limit : Nat)
    (reduction : Reduction) : Prop where
  /-- The subexpressions of all rows are within the limit. -/
  sound : ∀ row ∈ reduction.rows, row.Sound limit
  /-- There is one row that waits for every group around the row. -/
  nested : Nested reduction.waiting reduction.level
  /-- There is at most one group more around the row than the limit allows. -/
  level_le : reduction.level ≤ limit + 1
  /-- In that case nothing has been done with the row. -/
  within : reduction.stage ≠ .groups → reduction.level ≤ limit

variable {schedule : List Phase} {limit : Nat} {reduction next : Reduction}

theorem bounded_start
    (limit : Nat)
    (tokens : List Token) :
    (start 0 (Row.ofTokens tokens)).Bounded limit where
  sound := by
    intro row member
    obtain rfl := List.mem_singleton.mp member
    exact Row.sound_ofTokens limit tokens
  nested := rfl
  level_le := Nat.zero_le _
  within _ := Nat.zero_le _

theorem sound_rows_iff
    {waiting : List Waiting}
    {level : Nat}
    {row : Row}
    {stage : Stage} :
    (∀ other ∈ rows ⟨waiting, level, row, stage⟩, other.Sound limit) ↔
      row.Sound limit ∧ ∀ outer ∈ waiting, outer.row.Sound limit := by
  simp [rows]

theorem Bounded.steps
    (bounded : reduction.Bounded limit)
    (steps : Steps schedule limit reduction next) :
    next.Bounded limit := by
  obtain ⟨sound, nested, level_le, inside⟩ := bounded
  cases steps with
  | @enter waiting level row group within found =>
      obtain ⟨rowSound, waitingSound⟩ := sound_rows_iff.mp sound
      obtain ⟨opening, closing, -, -, row_eq, -⟩ :=
        Row.firstGroup?_eq_some_iff.mp found
      refine ⟨sound_rows_iff.mpr ⟨?_, ?_⟩, ⟨rfl, nested⟩, ?_, by simp⟩
      · refine rowSound.subset fun slot member => ?_
        simp [row_eq, Focus.fill_eq, member]
      · refine List.forall_mem_cons.mpr ⟨?_, waitingSound⟩
        refine rowSound.subset fun slot member => ?_
        rcases List.mem_append.mp member with before | after
        · simp [row_eq, Focus.fill_eq, List.mem_reverse.mp before]
        · simp [row_eq, Focus.fill_eq, after]
      · exact Nat.succ_le_succ within
  | grouped within noGroup =>
      exact ⟨sound, nested, level_le, fun _ => within⟩
  | leaves =>
      obtain ⟨rowSound, waitingSound⟩ := sound_rows_iff.mp sound
      exact ⟨sound_rows_iff.mpr ⟨rowSound.map_toLeaf, waitingSound⟩, nested,
        level_le, fun _ => inside (by simp)⟩
  | operator reduced =>
      obtain ⟨rowSound, waitingSound⟩ := sound_rows_iff.mp sound
      have steps := Phase.step?_eq_some_ok_iff.mp reduced
      exact ⟨sound_rows_iff.mpr ⟨rowSound.steps steps, waitingSound⟩, nested,
        level_le, fun _ => inside (by simp)⟩
  | phase ended =>
      exact ⟨sound, nested, level_le, fun _ => inside (by simp)⟩
  | @leave outer waiting level row subtree single =>
      obtain ⟨rowSound, waitingSound⟩ := sound_rows_iff.mp sound
      obtain ⟨outerSound, othersSound⟩ := List.forall_mem_cons.mp waitingSound
      obtain ⟨slot, rfl, taken⟩ := Row.single_eq_ok_iff.mp single
      have subtreeSound := rowSound.operand (List.mem_singleton_self _) taken
      refine ⟨sound_rows_iff.mpr ⟨?_, othersSound⟩, nested.2, ?_, by simp⟩
      · have between :
            Row.Sound limit (outer.before.reverse ++ [] ++ outer.after) := by
          rw [List.append_nil]
          exact outerSound
        rw [Waiting.fill, Focus.fill_eq]
        exact between.fill rfl subtreeSound
      · have level_eq : level = outer.level + 1 := nested.1
        have outer_le : outer.level ≤ level := by omega
        exact Nat.le_trans outer_le level_le

theorem Bounded.leadsTo
    (bounded : reduction.Bounded limit)
    (leads : LeadsTo schedule limit reduction next) :
    next.Bounded limit :=
  leads.preserves (fun _ _ holds steps => holds.steps steps) bounded

/-! ## Errors -/

theorem report_tooDeep
    (waiting : List Waiting)
    (limit : Nat) :
    report waiting (.tooDeep limit) = .tooDeep limit := by
  induction waiting with
  | nil => rfl
  | cons outer waiting hypothesis => exact hypothesis

/-- Beyond the limit, a reduction ends before anything is done with the row. -/
theorem Bounded.step_eq_tooDeep
    (bounded : reduction.Bounded limit)
    (beyond : limit < reduction.level) :
    reduction.step schedule limit = .ended (.error (.tooDeep limit)) := by
  obtain ⟨waiting, level, row, stage⟩ := reduction
  have isGroups : stage = .groups := by
    apply Classical.byContradiction
    intro other
    exact absurd (bounded.within other) (Nat.not_le.mpr beyond)
  subst isGroups
  rw [step_eq_ended_iff, ← report_tooDeep waiting]
  exact .tooDeep beyond

end Reduction

theorem ParseError.levels_eq_zero
    {error : ParseError}
    (outside : ∀ inner, error ≠ .inGroup inner) :
    error.levels = 0 := by
  cases error with
  | inGroup inner => exact absurd rfl (outside inner)
  | _ => rfl

theorem ParseError.levels_outsideGroup_le (error : ParseError) :
    error.outsideGroup.levels ≤ error.levels + 1 := by
  cases error <;> simp [outsideGroup, levels]

theorem Row.firstGroup?_ne_inGroup
    {row : Row}
    {inner : ParseError} :
    row.firstGroup? ≠ .error (.inGroup inner) := by
  unfold firstGroup?
  split
  · simp
  · split
    · simp
    · split
      · simp
      · split <;> simp

namespace Reduction

variable {schedule : List Phase} {limit : Nat} {reduction : Reduction}

theorem levels_report_le
    (waiting : List Waiting)
    (fault : ParseError) :
    (report waiting fault).levels ≤ waiting.length + fault.levels := by
  induction waiting generalizing fault with
  | nil => simp [report]
  | cons outer waiting hypothesis =>
      have later := hypothesis fault.outsideGroup
      have once := fault.levels_outsideGroup_le
      rw [report, List.foldl_cons, ← report, List.length_cons]
      omega

/-- An error that ends a reduction is met outside of the groups of its row. -/
theorem Ends.exists_fault
    {error : ParseError}
    (ends : Ends schedule limit reduction (.error error)) :
    ∃ fault, error = report reduction.waiting fault ∧
      ∀ inner, fault ≠ .inGroup inner := by
  cases ends with
  | tooDeep => exact ⟨_, rfl, by simp⟩
  | group within failed =>
      refine ⟨_, rfl, ?_⟩
      rintro inner rfl
      exact Row.firstGroup?_ne_inGroup failed
  | operator failed =>
      have notOfGroup := (Phase.fails_of_step? failed).isOfGroup_eq_false
      refine ⟨_, rfl, ?_⟩
      rintro inner rfl
      cases notOfGroup
  | several failed =>
      rw [Row.single_eq_error failed]
      exact ⟨_, rfl, by simp⟩

/-- An error of a reduction tells of no more groups than the limit. -/
theorem Bounded.levels_le
    {error : ParseError}
    (bounded : reduction.Bounded limit)
    (ended : reduction.step schedule limit = .ended (.error error)) :
    error.levels ≤ limit := by
  rcases Nat.lt_or_ge limit reduction.level with beyond | level_le
  · rw [bounded.step_eq_tooDeep beyond] at ended
    cases ended
    exact Nat.zero_le limit
  · obtain ⟨fault, rfl, outside⟩ := (step_eq_ended_iff.mp ended).exists_fault
    have told := levels_report_le reduction.waiting fault
    rw [ParseError.levels_eq_zero outside, bounded.nested.length_eq] at told
    exact Nat.le_trans told level_le

end Reduction

/-- At every point of the run that parses tokens, at every level of groups,
every subexpression in a row, or in what a step that fails leaves of it, carries
its depth and is no deeper than the limit. There are never more groups around
the row than the limit and one more, as many as there are rows that wait, and
with that one more the run ends before anything is done with the row. The run
comes to what the parser answers, and an error is told through no more groups
than the limit allows. -/
theorem subexpressions_stay_within_limit
    (maxDepth : Nat)
    (tokens : List Token) :
    (∀ reduction,
      Reduction.LeadsTo Phase.standard maxDepth
        (.start 0 (Row.ofTokens tokens)) reduction →
      (∀ row ∈ reduction.rows, ∀ working : Row, working.Sublist row →
        ∀ slot ∈ working, ∀ subtree : Subtree,
          slot = .node subtree ∨ slot = .group subtree →
          subtree.depth = subtree.tree.depth ∧ subtree.depth ≤ maxDepth) ∧
      reduction.level = reduction.waiting.length ∧
      reduction.level ≤ maxDepth + 1 ∧
      (reduction.level = maxDepth + 1 →
        reduction.step Phase.standard maxDepth =
          .ended (.error (.tooDeep maxDepth)))) ∧
    (∃ last outcome,
      Reduction.LeadsTo Phase.standard maxDepth
        (.start 0 (Row.ofTokens tokens)) last ∧
      last.step Phase.standard maxDepth = .ended outcome ∧
      parse maxDepth tokens = outcome.map Subtree.tree) ∧
    ∀ error, parse maxDepth tokens = .error error →
      error.levels ≤ maxDepth := by
  have bounded
      {reduction : Reduction}
      (leads : Reduction.LeadsTo Phase.standard maxDepth
        (.start 0 (Row.ofTokens tokens)) reduction) :
      reduction.Bounded maxDepth :=
    (Reduction.bounded_start maxDepth tokens).leadsTo leads
  obtain ⟨last, leads, ended⟩ := Reduction.start_leads_to_end Phase.standard
    maxDepth 0 (Row.ofTokens tokens)
  refine ⟨?_, ⟨last, _, leads, ended, ?_⟩, ?_⟩
  · intro reduction leadsHere
    obtain ⟨sound, nested, level_le, -⟩ := bounded leadsHere
    refine ⟨?_, nested.length_eq.symm, level_le, ?_⟩
    · rintro row member working part slot inWorking subtree holds
      have subtreeIn : subtree ∈ slot.subtree? := by
        rcases holds with rfl | rfl <;> rfl
      exact sound row member slot (part.subset inWorking) subtree subtreeIn
    · intro beyond
      exact (bounded leadsHere).step_eq_tooDeep (by omega)
  · rw [parse, parseBy]
    cases (Row.ofTokens tokens).reduce Phase.standard maxDepth 0 with
    | error fault => rfl
    | ok subtree => rfl
  · intro error failed
    rw [parse_eq_error_iff.mp failed] at ended
    exact (bounded leads).levels_le ended

end FilterLang
