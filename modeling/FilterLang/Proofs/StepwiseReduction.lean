import FilterLang.Proofs.DepthLimit
import FilterLang.Proofs.ParseGrammar
import FilterLang.Row.Stepwise
import Mathlib.Logic.Relation

/-!
# Steps make up the reduction

The outcome of a reduction under way is what is still to be done with its row,
and then with the rows that wait. No step changes it. Every step uses up a
token, comes out of a group, or brings the work on the row further, so the steps
come to an end, and what they end with is the outcome of the whole reduction.
What one step preserves holds wherever steps lead.
-/

namespace FilterLang
namespace Reduction

variable {schedule : List Phase} {limit : Nat} {reduction next : Reduction}

/-- Steps lead from a reduction to another one. -/
abbrev LeadsTo
    (schedule : List Phase)
    (limit : Nat) : Reduction → Reduction → Prop :=
  Relation.ReflTransGen (Steps schedule limit)

/-- What every step preserves holds wherever steps lead. -/
theorem LeadsTo.preserves
    {property : Reduction → Prop}
    (preserved : ∀ reduction next, property reduction →
      Steps schedule limit reduction next → property next)
    (leads : LeadsTo schedule limit reduction next)
    (holds : property reduction) :
    property next := by
  induction leads with
  | refl => exact holds
  | tail _ steps hypothesis => exact preserved _ _ hypothesis steps

/-! ## The outcome -/

/-- What rows that wait come to, one after another, when the group of the first
has come to an outcome. -/
def resume
    (schedule : List Phase)
    (limit : Nat) :
    List Waiting → Except ParseError Subtree → Except ParseError Subtree
  | [], outcome => outcome
  | outer :: waiting, outcome =>
      resume schedule limit waiting
        (outcome.mapError ParseError.outsideGroup >>= fun subtree =>
          (outer.fill subtree).reduce schedule limit outer.level)

/-- What a row comes to, from a stage on. -/
def finish
    (schedule : List Phase)
    (limit level : Nat)
    (row : Row) : Stage → Except ParseError Subtree
  | .groups => row.reduce schedule limit level
  | .leaves => row.assemble schedule limit
  | .phases remaining => row.exhaustAll limit remaining >>= Row.single

/-- What a reduction under way comes to. -/
def outcome
    (schedule : List Phase)
    (limit : Nat)
    (reduction : Reduction) : Except ParseError Subtree :=
  resume schedule limit reduction.waiting
    (finish schedule limit reduction.level reduction.row reduction.stage)

theorem resume_error
    (waiting : List Waiting)
    (fault : ParseError) :
    resume schedule limit waiting (.error fault) =
      .error (report waiting fault) := by
  induction waiting generalizing fault with
  | nil => rfl
  | cons outer waiting hypothesis => exact hypothesis fault.outsideGroup

theorem finish_phases_nil
    (level : Nat)
    (row : Row) :
    finish schedule limit level row (.phases []) = row.single := rfl

/-- A phase that takes a step goes on from where the step leads. -/
theorem exhaustAll_of_step?
    {phase : Phase}
    {remaining : List Phase}
    {row : Row}
    {stepped : Except ParseError Row}
    (isStep : phase.step? limit row = some stepped) :
    row.exhaustAll limit (phase :: remaining) =
      stepped >>= fun next => next.exhaustAll limit (phase :: remaining) := by
  rw [Row.exhaustAll, List.foldlM_cons, Phase.exhaust_of_step?_eq_some isStep]
  cases stepped with
  | error fault => rfl
  | ok next => rfl

theorem exhaustAll_of_ended
    {phase : Phase}
    {remaining : List Phase}
    {row : Row}
    (ended : phase.step? limit row = none) :
    row.exhaustAll limit (phase :: remaining) =
      row.exhaustAll limit remaining := by
  rw [Row.exhaustAll, List.foldlM_cons, Phase.exhaust_of_step?_eq_none ended]
  rfl

/-- A step does not change what the reduction comes to. -/
theorem Steps.outcome_eq
    (steps : Steps schedule limit reduction next) :
    next.outcome schedule limit = reduction.outcome schedule limit := by
  cases steps with
  | enter within found =>
      simp only [outcome, finish, resume, Waiting.fill]
      rw [Row.reduce_of_firstGroup?_some found,
        if_neg (Nat.not_lt.mpr within)]
      rfl
  | grouped within noGroup =>
      simp only [outcome, finish]
      rw [Row.reduce_of_firstGroup?_none noGroup,
        if_neg (Nat.not_lt.mpr within)]
  | leaves => rfl
  | operator reduced =>
      simp only [outcome, finish]
      rw [exhaustAll_of_step? reduced]
      rfl
  | phase ended =>
      simp only [outcome, finish]
      rw [exhaustAll_of_ended ended]
  | leave single =>
      simp only [outcome, finish_phases_nil, resume, single]
      rfl

/-- A reduction ends with what it comes to. -/
theorem Ends.eq_outcome
    {result : Except ParseError Subtree}
    (ends : Ends schedule limit reduction result) :
    result = reduction.outcome schedule limit := by
  cases ends with
  | tooDeep beyond =>
      rw [outcome, finish, Row.reduce_of_limit_lt beyond, resume_error]
  | group within failed =>
      rw [outcome, finish, Row.reduce_of_firstGroup?_error failed,
        if_neg (Nat.not_lt.mpr within), resume_error]
  | operator failed =>
      rw [outcome, finish, exhaustAll_of_step? failed]
      exact (resume_error _ _).symm
  | several failed => rw [outcome, finish_phases_nil, failed, resume_error]
  | single single => rw [outcome, finish_phases_nil, single, resume]

/-! ## The end -/

/-- The number of tokens left in some rows that wait. -/
def waitingTokens : List Waiting → Nat
  | [] => 0
  | outer :: waiting => outer.row.tokenCount + waitingTokens waiting

/-- The number of tokens left in a reduction under way. -/
def tokenCount (reduction : Reduction) : Nat :=
  reduction.row.tokenCount + waitingTokens reduction.waiting

theorem waitingTokens_cons
    (level : Nat)
    (before after : Row)
    (waiting : List Waiting) :
    waitingTokens (⟨level, before, after⟩ :: waiting) =
      before.tokenCount + after.tokenCount + waitingTokens waiting := by
  simp [waitingTokens, Waiting.row]

theorem tokenCount_fill_waiting
    (outer : Waiting)
    (subtree : Subtree) :
    (outer.fill subtree).tokenCount = outer.row.tokenCount := by
  simp [Waiting.fill, Waiting.row, Focus.fill_eq]

/-- The steps that work on a row, before and behind a stage, and use up no
tokens. -/
def stepsLeft (schedule : List Phase) : Stage → Nat
  | .groups => schedule.length + 2
  | .leaves => schedule.length + 1
  | .phases remaining => remaining.length

/-- What every step makes less: the tokens, or else the rows that wait, or else
what is still to be done with the row. -/
def workLeft
    (schedule : List Phase)
    (reduction : Reduction) : Nat × Nat × Nat :=
  (reduction.tokenCount, reduction.waiting.length,
    stepsLeft schedule reduction.stage)

theorem Steps.workLeft_lt
    (steps : Steps schedule limit reduction next) :
    Prod.Lex (· < ·) (Prod.Lex (· < ·) (· < ·))
      (next.workLeft schedule) (reduction.workLeft schedule) := by
  cases steps with
  | enter within found =>
      have count_eq := Row.tokenCount_of_firstGroup? found
      refine .left _ _ ?_
      simp only [tokenCount, waitingTokens_cons]
      omega
  | grouped within noGroup =>
      exact .right _ (.right _ (Nat.lt_succ_self _))
  | @leaves waiting level row =>
      have fewer := row.tokenCount_map_toLeaf_le
      rcases Nat.lt_or_eq_of_le fewer with less | same
      · exact .left _ _ (Nat.add_lt_add_right less _)
      · simp only [workLeft, tokenCount, same]
        exact .right _ (.right _ (Nat.lt_succ_self _))
  | operator reduced =>
      exact .left _ _
        (Nat.add_lt_add_right (Phase.tokenCount_of_step? reduced) _)
  | phase ended =>
      exact .right _ (.right _ (Nat.lt_succ_self _))
  | @leave outer waiting level row subtree single =>
      obtain ⟨slot, rfl, taken⟩ := Row.single_eq_ok_iff.mp single
      have count_eq :
          (outer.fill subtree).tokenCount + waitingTokens waiting =
            Row.tokenCount [slot] + waitingTokens (outer :: waiting) := by
        simp [tokenCount_fill_waiting, waitingTokens,
          Slot.tokenCount_of_operand taken]
      simp only [workLeft, tokenCount, count_eq]
      exact .right _ (.left _ _ (Nat.lt_succ_self _))

/-- The steps of every reduction lead to one that ends with what the reduction
comes to. -/
theorem leads_to_end
    (schedule : List Phase)
    (limit : Nat)
    (reduction : Reduction) :
    ∃ last, LeadsTo schedule limit reduction last ∧
      last.step schedule limit = .ended (reduction.outcome schedule limit) := by
  cases stepped : reduction.step schedule limit with
  | ended result =>
      refine ⟨reduction, .refl, ?_⟩
      rw [stepped, (step_eq_ended_iff.mp stepped).eq_outcome]
  | next next =>
      have steps := step_eq_next_iff.mp stepped
      obtain ⟨last, leads, ended⟩ := leads_to_end schedule limit next
      refine ⟨last, .head steps leads, ?_⟩
      rw [ended, steps.outcome_eq]
termination_by reduction.workLeft schedule
decreasing_by exact (step_eq_next_iff.mp stepped).workLeft_lt

/-- The steps that start with a row end with what the row is reduced to. -/
theorem start_leads_to_end
    (schedule : List Phase)
    (limit level : Nat)
    (row : Row) :
    ∃ last, LeadsTo schedule limit (start level row) last ∧
      last.step schedule limit = .ended (row.reduce schedule limit level) :=
  leads_to_end schedule limit (start level row)

/-! ## Groups -/

/-- A reduction with more rows that wait, outside of all others. -/
def inside
    (outside : List Waiting)
    (reduction : Reduction) : Reduction :=
  { reduction with waiting := reduction.waiting ++ outside }

/-- A step is the same whatever rows wait outside. -/
theorem Steps.inside
    (steps : Steps schedule limit reduction next)
    (outside : List Waiting) :
    Steps schedule limit (reduction.inside outside) (next.inside outside) := by
  cases steps with
  | enter within found => exact .enter within found
  | grouped within noGroup => exact .grouped within noGroup
  | leaves => exact .leaves
  | operator reduced => exact .operator reduced
  | phase ended => exact .phase ended
  | leave single => exact .leave single

theorem LeadsTo.inside
    (leads : LeadsTo schedule limit reduction next)
    (outside : List Waiting) :
    LeadsTo schedule limit (reduction.inside outside)
      (next.inside outside) := by
  induction leads with
  | refl => exact .refl
  | tail _ steps hypothesis => exact hypothesis.tail (steps.inside outside)

/-- When the first group of a row is reduced to a subexpression, steps lead
from the row to the one that has the subexpression in the place of the
group. -/
theorem leads_to_fill
    {level : Nat}
    {row : Row}
    {group : Group}
    {subtree : Subtree}
    (found : row.firstGroup? = .ok (some group))
    (reduced :
      group.contents.reduce schedule limit (level + 1) = .ok subtree)
    (waiting : List Waiting) :
    LeadsTo schedule limit
      ⟨waiting, level, row, .groups⟩
      ⟨waiting, level, group.fill subtree, .groups⟩ := by
  have within : level ≤ limit :=
    Nat.le_of_succ_le (Row.level_le_of_reduce reduced)
  obtain ⟨last, leads, ended⟩ :=
    start_leads_to_end schedule limit (level + 1) group.contents
  rw [reduced, step_eq_ended_iff] at ended
  have outer := leads.inside (⟨level, group.before, group.after⟩ :: waiting)
  cases ended with
  | single single =>
      exact (Relation.ReflTransGen.head (.enter within found) outer).tail
        (.leave single)

end Reduction
end FilterLang
