import FilterLang.Parse

/-!
# Reductions step by step

A reduction that is under way works on one row and keeps the rows waiting whose
groups it has gone into. A step goes into a group, makes leaves, reduces one
operator, ends a phase or comes back out of a group. The last step ends the
reduction, with a subexpression or with an error that has been told outside of
every group. Between two steps, the row and the rows that wait hold everything
that has been made so far; a step that fails only takes slots away.
-/

namespace FilterLang

/-- What is done with a row. -/
inductive Stage
  /-- Its groups are reduced. -/
  | groups
  /-- Its names and values become leaves. -/
  | leaves
  /-- The operators of some phases, in order, are reduced. -/
  | phases (remaining : List Phase)
  deriving DecidableEq

/-- A row without the group that is being reduced. -/
structure Waiting where
  /-- The number of groups around the row. -/
  level : Nat
  /-- The slots before the group, nearest first. -/
  before : Row
  /-- The slots behind the group, left to right. -/
  after : Row
  deriving DecidableEq

namespace Waiting

/-- The slots that wait. -/
def row (outer : Waiting) : Row :=
  outer.before.reverse ++ outer.after

/-- The row with a subexpression in the place of its group. -/
def fill
    (outer : Waiting)
    (subtree : Subtree) : Row :=
  Focus.fill outer.before (.group subtree) outer.after

end Waiting

/-- A reduction that is under way. -/
structure Reduction where
  /-- The rows around the row, innermost first. -/
  waiting : List Waiting
  /-- The number of groups around the row. -/
  level : Nat
  /-- The row that is worked on. -/
  row : Row
  /-- What is done with it. -/
  stage : Stage
  deriving DecidableEq

namespace Reduction

/-- A reduction of a row that has `level` groups around it. -/
def start
    (level : Nat)
    (row : Row) : Reduction :=
  ⟨[], level, row, .groups⟩

/-- The row that is worked on and all rows that wait. -/
def rows (reduction : Reduction) : List Row :=
  reduction.row :: reduction.waiting.map Waiting.row

/-- What a step comes to. -/
inductive Move
  /-- The reduction goes on. -/
  | next (reduction : Reduction)
  /-- The reduction has ended. -/
  | ended (outcome : Except ParseError Subtree)

/-- How an error is reported outside of all groups. -/
def report
    (waiting : List Waiting)
    (fault : ParseError) : ParseError :=
  waiting.foldl (fun fault _ => fault.outsideGroup) fault

/-- Give up. -/
def fail
    (waiting : List Waiting)
    (fault : ParseError) : Move :=
  .ended (.error (report waiting fault))

/-- Put a subexpression in the place of the group that it was made from. -/
def leave : List Waiting → Subtree → Move
  | [], subtree => .ended (.ok subtree)
  | outer :: waiting, subtree =>
      .next ⟨waiting, outer.level, outer.fill subtree, .groups⟩

/-- Take the next step. -/
def step
    (schedule : List Phase)
    (limit : Nat) : Reduction → Move
  | ⟨waiting, level, row, .groups⟩ =>
      if limit < level then
        fail waiting (.tooDeep limit)
      else
        match row.firstGroup? with
        | .error fault => fail waiting fault
        | .ok none => .next ⟨waiting, level, row, .leaves⟩
        | .ok (some group) =>
            .next ⟨⟨level, group.before, group.after⟩ :: waiting, level + 1,
              group.contents, .groups⟩
  | ⟨waiting, level, row, .leaves⟩ =>
      .next ⟨waiting, level, row.map Slot.toLeaf, .phases schedule⟩
  | ⟨waiting, level, row, .phases (phase :: remaining)⟩ =>
      match phase.step? limit row with
      | some (.ok next) =>
          .next ⟨waiting, level, next, .phases (phase :: remaining)⟩
      | some (.error fault) => fail waiting fault
      | none => .next ⟨waiting, level, row, .phases remaining⟩
  | ⟨waiting, _, row, .phases []⟩ =>
      match row.single with
      | .ok subtree => leave waiting subtree
      | .error fault => fail waiting fault

/-- A step takes a reduction to another one. -/
inductive Steps
    (schedule : List Phase)
    (limit : Nat) : Reduction → Reduction → Prop
  | enter
      {waiting : List Waiting}
      {level : Nat}
      {row : Row}
      {group : Group}
      (within : level ≤ limit)
      (found : row.firstGroup? = .ok (some group)) :
      Steps schedule limit
        ⟨waiting, level, row, .groups⟩
        ⟨⟨level, group.before, group.after⟩ :: waiting, level + 1,
          group.contents, .groups⟩
  | grouped
      {waiting : List Waiting}
      {level : Nat}
      {row : Row}
      (within : level ≤ limit)
      (noGroup : row.firstGroup? = .ok none) :
      Steps schedule limit
        ⟨waiting, level, row, .groups⟩
        ⟨waiting, level, row, .leaves⟩
  | leaves
      {waiting : List Waiting}
      {level : Nat}
      {row : Row} :
      Steps schedule limit
        ⟨waiting, level, row, .leaves⟩
        ⟨waiting, level, row.map Slot.toLeaf, .phases schedule⟩
  | operator
      {waiting : List Waiting}
      {level : Nat}
      {row next : Row}
      {phase : Phase}
      {remaining : List Phase}
      (reduced : phase.step? limit row = some (.ok next)) :
      Steps schedule limit
        ⟨waiting, level, row, .phases (phase :: remaining)⟩
        ⟨waiting, level, next, .phases (phase :: remaining)⟩
  | phase
      {waiting : List Waiting}
      {level : Nat}
      {row : Row}
      {phase : Phase}
      {remaining : List Phase}
      (ended : phase.step? limit row = none) :
      Steps schedule limit
        ⟨waiting, level, row, .phases (phase :: remaining)⟩
        ⟨waiting, level, row, .phases remaining⟩
  | leave
      {outer : Waiting}
      {waiting : List Waiting}
      {level : Nat}
      {row : Row}
      {subtree : Subtree}
      (single : row.single = .ok subtree) :
      Steps schedule limit
        ⟨outer :: waiting, level, row, .phases []⟩
        ⟨waiting, outer.level, outer.fill subtree, .groups⟩

/-- A reduction ends, with a subexpression or with an error. -/
inductive Ends
    (schedule : List Phase)
    (limit : Nat) : Reduction → Except ParseError Subtree → Prop
  | tooDeep
      {waiting : List Waiting}
      {level : Nat}
      {row : Row}
      (beyond : limit < level) :
      Ends schedule limit
        ⟨waiting, level, row, .groups⟩
        (.error (report waiting (.tooDeep limit)))
  | group
      {waiting : List Waiting}
      {level : Nat}
      {row : Row}
      {fault : ParseError}
      (within : level ≤ limit)
      (failed : row.firstGroup? = .error fault) :
      Ends schedule limit
        ⟨waiting, level, row, .groups⟩
        (.error (report waiting fault))
  | operator
      {waiting : List Waiting}
      {level : Nat}
      {row : Row}
      {phase : Phase}
      {remaining : List Phase}
      {fault : ParseError}
      (failed : phase.step? limit row = some (.error fault)) :
      Ends schedule limit
        ⟨waiting, level, row, .phases (phase :: remaining)⟩
        (.error (report waiting fault))
  | several
      {waiting : List Waiting}
      {level : Nat}
      {row : Row}
      {fault : ParseError}
      (failed : row.single = .error fault) :
      Ends schedule limit
        ⟨waiting, level, row, .phases []⟩
        (.error (report waiting fault))
  | single
      {level : Nat}
      {row : Row}
      {subtree : Subtree}
      (single : row.single = .ok subtree) :
      Ends schedule limit ⟨[], level, row, .phases []⟩ (.ok subtree)

variable {schedule : List Phase} {limit : Nat} {reduction next : Reduction}

/-- Everything that a step can do that goes on. -/
theorem step_eq_next_iff :
    reduction.step schedule limit = .next next ↔
      Steps schedule limit reduction next := by
  constructor
  · intro stepped
    obtain ⟨waiting, level, row, stage⟩ := reduction
    match stage with
    | .groups =>
        simp only [step] at stepped
        split at stepped
        · simp [fail] at stepped
        · rename_i within
          split at stepped
          · simp [fail] at stepped
          · rename_i noGroup
            cases stepped
            exact .grouped (Nat.le_of_not_lt within) noGroup
          · rename_i group found
            cases stepped
            exact .enter (Nat.le_of_not_lt within) found
    | .leaves =>
        cases stepped
        exact .leaves
    | .phases [] =>
        simp only [step] at stepped
        split at stepped
        · rename_i subtree single
          cases waiting with
          | nil => simp [leave] at stepped
          | cons outer waiting =>
              cases stepped
              exact .leave single
        · simp [fail] at stepped
    | .phases (phase :: remaining) =>
        simp only [step] at stepped
        split at stepped
        · rename_i reduced
          cases stepped
          exact .operator reduced
        · simp [fail] at stepped
        · rename_i ended
          cases stepped
          exact .phase ended
  · intro steps
    cases steps with
    | enter within found => simp [step, Nat.not_lt.mpr within, found]
    | grouped within noGroup => simp [step, Nat.not_lt.mpr within, noGroup]
    | leaves => rfl
    | operator reduced => simp [step, reduced]
    | phase ended => simp [step, ended]
    | leave single => simp [step, single, leave]

/-- Everything that a step can do that ends a reduction. -/
theorem step_eq_ended_iff
    {outcome : Except ParseError Subtree} :
    reduction.step schedule limit = .ended outcome ↔
      Ends schedule limit reduction outcome := by
  constructor
  · intro stepped
    obtain ⟨waiting, level, row, stage⟩ := reduction
    match stage with
    | .groups =>
        simp only [step] at stepped
        split at stepped
        · rename_i beyond
          cases stepped
          exact .tooDeep beyond
        · rename_i within
          split at stepped
          · rename_i failed
            cases stepped
            exact .group (Nat.le_of_not_lt within) failed
          · cases stepped
          · cases stepped
    | .leaves => cases stepped
    | .phases [] =>
        simp only [step] at stepped
        split at stepped
        · rename_i single
          cases waiting with
          | nil =>
              cases stepped
              exact .single single
          | cons outer waiting => cases stepped
        · rename_i failed
          cases stepped
          exact .several failed
    | .phases (phase :: remaining) =>
        simp only [step] at stepped
        split at stepped
        · cases stepped
        · rename_i failed
          cases stepped
          exact .operator failed
        · cases stepped
  · intro ends
    cases ends with
    | tooDeep beyond => simp [step, beyond, fail]
    | group within failed => simp [step, Nat.not_lt.mpr within, failed, fail]
    | operator failed => simp [step, failed, fail]
    | several failed => simp [step, failed, fail]
    | single single => simp [step, single, leave]

end Reduction
end FilterLang
