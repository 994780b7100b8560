import FilterLang.Row.Group
import FilterLang.Row.Phase

/-!
# From tokens to expressions

A row is reduced group by group and then phase by phase until one subexpression
is left. One limit bounds both the number of groups around any place and the
depth of the expression, so that no subexpression deeper than the limit is ever
made.
-/

namespace FilterLang

/-- The limit on nesting and depth when none is given. -/
def defaultMaxDepth : Nat :=
  256

namespace Row

/-- Reduce a row without groups to its one subexpression. -/
def assemble
    (schedule : List Phase)
    (limit : Nat)
    (row : Row) : Except ParseError Subtree := do
  let reduced ← schedule.foldlM (fun row phase => phase.exhaust limit row)
    (row.map Slot.toLeaf)
  single reduced

/-- Reduce a row that has `level` groups around it. -/
def reduce
    (schedule : List Phase)
    (limit level : Nat)
    (row : Row) : Except ParseError Subtree :=
  if limit < level then
    .error (.tooDeep limit)
  else
    match _found : row.firstGroup? with
    | .error fault => .error fault
    | .ok none => row.assemble schedule limit
    | .ok (some group) =>
        match reduce schedule limit (level + 1) group.contents with
        | .error fault => .error fault.outsideGroup
        | .ok subtree => reduce schedule limit level (group.fill subtree)
termination_by row.tokenCount
decreasing_by
  · exact tokenCount_contents _found
  · exact tokenCount_fill_group _found subtree

section

variable {schedule : List Phase} {limit level : Nat} {row : Row}

theorem reduce_of_limit_lt
    (limit_lt : limit < level) :
    reduce schedule limit level row = .error (.tooDeep limit) := by
  rw [reduce, if_pos limit_lt]

theorem level_le_of_reduce
    {subtree : Subtree}
    (reduced : reduce schedule limit level row = .ok subtree) :
    level ≤ limit := by
  apply Nat.le_of_not_lt
  intro limit_lt
  rw [reduce_of_limit_lt limit_lt] at reduced
  cases reduced

theorem reduce_of_firstGroup?_error
    {fault : ParseError}
    (failed : row.firstGroup? = .error fault) :
    reduce schedule limit level row =
      if limit < level then .error (.tooDeep limit) else .error fault := by
  rw [reduce]
  congr 1
  split <;> simp_all

theorem reduce_of_firstGroup?_none
    (noGroup : row.firstGroup? = .ok none) :
    reduce schedule limit level row =
      if limit < level then
        .error (.tooDeep limit)
      else
        row.assemble schedule limit := by
  rw [reduce]
  congr 1
  split <;> simp_all

/-- The first group is reduced to a subexpression, which takes its place. -/
theorem reduce_of_firstGroup?_some
    {group : Group}
    (found : row.firstGroup? = .ok (some group)) :
    reduce schedule limit level row =
      if limit < level then
        .error (.tooDeep limit)
      else
        (reduce schedule limit (level + 1) group.contents).mapError
            ParseError.outsideGroup >>= fun subtree =>
          reduce schedule limit level (group.fill subtree) := by
  rw [reduce]
  congr 1
  split
  · simp_all
  · simp_all
  · rename_i other otherFound
    rw [found, Except.ok.injEq, Option.some.injEq] at otherFound
    subst otherFound
    split
    · rename_i fault failed
      rw [failed]
      rfl
    · rename_i subtree reduced
      rw [reduced]
      rfl

end

end Row

/-- The expression of a list of tokens, by a given schedule. -/
def parseBy
    (schedule : List Phase)
    (maxDepth : Nat)
    (tokens : List Token) : Except ParseError Expr := do
  let subtree ← (Row.ofTokens tokens).reduce schedule maxDepth 0
  return subtree.tree

/-- The expression of a list of tokens. -/
def parse
    (maxDepth : Nat)
    (tokens : List Token) : Except ParseError Expr :=
  parseBy Phase.standard maxDepth tokens

end FilterLang
