import FilterLang.Guarded
import FilterLang.Parse

/-!
# Reductions in place

A row may be kept in one place and reduced there: slots are looked up, taken
out, put in and overwritten by their index, and the indices are worked out
before other slots are taken out. Every lookup and every number is guarded. A
node may overwrite no other slot than the one in which its operator was found.
Whatever is reduced makes the row shorter.
-/

namespace FilterLang

/-- Whether a slot holds a token of a kind. -/
def Slot.holds
    (kind : TokenKind)
    (slot : Slot) : Bool :=
  slot.token?.any fun found => found.kind = kind

namespace InPlace

/-- The greatest numbers that can be counted. -/
structure Capacity where
  /-- The greatest index, number of groups and depth. -/
  count : Nat
  /-- The greatest position of a token. -/
  position : Nat

/-! ## Slots by index -/

/-- The slot at an index. -/
def slotAt
    (index : Nat)
    (row : Row) : Guarded ParseError Slot :=
  match row[index]? with
  | some slot => .ok slot
  | none => .error (.breach .outOfRange)

/-- Take out the slot at an index. The slots behind it move up. -/
def remove
    (index : Nat)
    (row : Row) : Guarded ParseError (Slot × Row) :=
  match row[index]? with
  | some slot => .ok (slot, row.eraseIdx index)
  | none => .error (.breach .outOfRange)

/-- Take out the last slot. -/
def pop (row : Row) : Guarded ParseError (Slot × Row) :=
  match row.getLast? with
  | some slot => .ok (slot, row.dropLast)
  | none => .error (.breach .outOfRange)

/-- Take out the slots from one index up to and including another one. -/
def drain
    (first last : Nat)
    (row : Row) : Guarded ParseError (Row × Row) :=
  if first ≤ last ∧ last < row.length then
    .ok ((row.take (last + 1)).drop first,
      row.take first ++ row.drop (last + 1))
  else
    .error (.breach .outOfRange)

/-- Put a slot in at an index. The slots from there on move down. -/
def insert
    (index : Nat)
    (slot : Slot)
    (row : Row) : Guarded ParseError Row :=
  if index ≤ row.length then
    .ok (row.insertIdx index slot)
  else
    .error (.breach .outOfRange)

/-- Overwrite the slot at an index, which must be the one that is meant. -/
def overwrite
    (index : Nat)
    (meant slot : Slot)
    (row : Row) : Guarded ParseError Row :=
  match row[index]? with
  | some found =>
      if found = meant then
        .ok (row.set index slot)
      else
        .error (.breach .otherSlot)
  | none => .error (.breach .outOfRange)

theorem length_of_remove
    {index : Nat}
    {row rest : Row}
    {slot : Slot}
    (removed : remove index row = .ok (slot, rest)) :
    rest.length + 1 = row.length := by
  unfold remove at removed
  split at removed
  · rename_i found
    cases removed
    have inRange : index < row.length := (List.getElem?_eq_some_iff.mp found).1
    rw [List.length_eraseIdx_of_lt inRange]
    omega
  · cases removed

theorem length_of_pop
    {row rest : Row}
    {slot : Slot}
    (popped : pop row = .ok (slot, rest)) :
    rest.length + 1 = row.length := by
  unfold pop at popped
  split at popped
  · rename_i found
    cases popped
    have nonempty : row ≠ [] := by
      rintro rfl
      cases found
    have length_pos := List.length_pos_iff.mpr nonempty
    rw [List.length_dropLast]
    omega
  · cases popped

theorem length_of_drain
    {first last : Nat}
    {row drained rest : Row}
    (taken : drain first last row = .ok (drained, rest)) :
    drained.length + rest.length = row.length := by
  unfold drain at taken
  split at taken
  · cases taken
    simp only [List.length_append, List.length_drop, List.length_take]
    omega
  · cases taken

theorem length_of_insert
    {index : Nat}
    {slot : Slot}
    {row next : Row}
    (inserted : insert index slot row = .ok next) :
    next.length = row.length + 1 := by
  unfold insert at inserted
  split at inserted
  · rename_i inRange
    cases inserted
    exact List.length_insertIdx_of_le_length inRange slot
  · cases inserted

theorem length_of_overwrite
    {index : Nat}
    {meant slot : Slot}
    {row next : Row}
    (overwritten : overwrite index meant slot row = .ok next) :
    next.length = row.length := by
  unfold overwrite at overwritten
  split at overwritten
  · split at overwritten
    · cases overwritten
      exact List.length_set
    · cases overwritten
  · cases overwritten

/-! ## Groups -/

/-- The position of the token in a slot. -/
def position
    (capacity : Capacity) : Slot → Guarded ParseError Nat
  | .token found => Guarded.increment capacity.position found.span.start
  | .node _ => .ok 0
  | .group _ => .ok 0

/-- The index of the parenthesis that closes a group, in slots of the group that
begin at an index, when `nesting` groups have been opened before them inside of
the group and not been closed. -/
def closingIndex?
    (greatest : Nat) :
    (nesting index : Nat) → Row → Guarded ParseError (Option Nat)
  | _, _, [] => .ok none
  | nesting, index, slot :: row => do
      let next ← Guarded.increment greatest index
      if slot.holds .openParen then
        let deeper ← Guarded.increment greatest nesting
        closingIndex? greatest deeper next row
      else if slot.holds .closeParen then
        if nesting = 0 then
          return some index
        else
          let shallower ← Guarded.decrement nesting
          closingIndex? greatest shallower next row
      else
        closingIndex? greatest nesting next row

/-- A group that has been taken out of a row. -/
structure TakenGroup where
  /-- The index at which the group began. -/
  index : Nat
  /-- The slots between its parentheses. -/
  contents : Row
  /-- The other slots of the row. -/
  rest : Row

/-- Take a group out of a row, and its parentheses out of the group. -/
def cutOut
    (opening closing : Nat)
    (row : Row) : Guarded ParseError TakenGroup := do
  let (group, rest) ← drain opening closing row
  let (_, opened) ← pop group
  let (_, contents) ← remove 0 opened
  return ⟨opening, contents, rest⟩

/-- Take the group that begins at an index out of a row. -/
def takeGroupAt
    (capacity : Capacity)
    (opening : Nat)
    (row : Row) : Guarded ParseError TakenGroup := do
  let slot ← slotAt opening row
  let start ← position capacity slot
  let inside ← Guarded.increment capacity.count opening
  if inside = row.length then
    .error (.fault (.danglingOpen start))
  else
    let closing? ← closingIndex? capacity.count 0 inside (row.drop inside)
    match closing? with
    | none => .error (.fault (.unmatchedOpen start))
    | some closing =>
        if closing = inside then
          .error (.fault (.emptyGroup start))
        else
          cutOut opening closing row

/-- Take the first group out of a row, if the row has an opening parenthesis. -/
def takeGroup
    (capacity : Capacity)
    (row : Row) : Guarded ParseError (Option TakenGroup) :=
  match row.findIdx? (Slot.holds .openParen) with
  | none => .ok none
  | some opening => do
      let group ← takeGroupAt capacity opening row
      return some group

theorem length_of_cutOut
    {opening closing : Nat}
    {row : Row}
    {group : TakenGroup}
    (cut : cutOut opening closing row = .ok group) :
    group.contents.length + group.rest.length + 2 = row.length := by
  simp only [cutOut, bind_eq_ok_iff, Prod.exists] at cut
  obtain ⟨drained, rest, isDrained, _, opened, isPopped, _, contents,
    isRemoved, made⟩ := cut
  cases made
  have drainedLength := length_of_drain isDrained
  have poppedLength := length_of_pop isPopped
  have removedLength := length_of_remove isRemoved
  simp only
  omega

theorem length_of_takeGroup
    {capacity : Capacity}
    {row : Row}
    {group : TakenGroup}
    (taken : takeGroup capacity row = .ok (some group)) :
    group.contents.length + group.rest.length + 2 = row.length := by
  unfold takeGroup at taken
  split at taken
  · cases taken
  · simp only [takeGroupAt, bind_eq_ok_iff, pure, Except.pure,
      Except.ok.injEq, Option.some.injEq] at taken
    obtain ⟨_, ⟨slot, -, start, -, inside, -, taken⟩, rfl⟩ := taken
    split at taken
    · cases taken
    · simp only [bind_eq_ok_iff] at taken
      obtain ⟨closing?, -, taken⟩ := taken
      split at taken
      · cases taken
      · split at taken
        · cases taken
        · exact length_of_cutOut taken

/-! ## Operators -/

/-- Take the operand of an operator out of a row. -/
def takeOperand
    (operator : Operator)
    (side : Side)
    (index : Nat)
    (row : Row) : Guarded ParseError (Subtree × Row) :=
  if row.length ≤ index then
    .error (.fault (.missingOperand operator side))
  else do
    let (slot, rest) ← remove index row
    let subtree ← Guarded.unbreached (slot.operand operator side)
    return (subtree, rest)

/-- The depth of a node whose deepest operand has a given depth. -/
def depthAbove
    (greatest limit depth : Nat) : Guarded ParseError Nat :=
  if limit ≤ depth then
    .error (.fault (.tooDeep limit))
  else
    Guarded.increment greatest depth

/-- Overwrite the binary operator at an index, after its operands have been
taken out, the right one first. -/
def reduceBinary
    (greatest limit : Nat)
    (op : BinaryOp)
    (index : Nat)
    (row : Row) : Guarded ParseError Row := do
  let operator ← slotAt index row
  let behind ← Guarded.increment greatest index
  let (right, withoutRight) ← takeOperand (.binary op) .right behind row
  if index = 0 then
    .error (.fault (.missingOperand (.binary op) .left))
  else
    let before ← Guarded.decrement index
    let (left, rest) ← takeOperand (.binary op) .left before withoutRight
    let depth ← depthAbove greatest limit (max left.depth right.depth)
    overwrite before operator
      (.node ⟨.binary op left.tree right.tree, depth⟩) rest

/-- Overwrite the negation at an index, after its operand has been taken out. -/
def reduceNegation
    (greatest limit index : Nat)
    (row : Row) : Guarded ParseError Row := do
  let operator ← slotAt index row
  let behind ← Guarded.increment greatest index
  let (child, rest) ← takeOperand .not .right behind row
  let depth ← depthAbove greatest limit child.depth
  overwrite index operator (.node ⟨.not child.tree, depth⟩) rest

/-- The index of the last slot that holds a token of a kind. -/
def lastIndex?
    (kind : TokenKind)
    (row : Row) : Option Nat :=
  (row.reverse.findIdx? (Slot.holds kind)).map fun behind =>
    row.length - 1 - behind

/-- Reduce the next operator of a kind, if one is left: the leftmost binary
operator, the rightmost negation. -/
def step?
    (greatest limit : Nat)
    (row : Row) : Operator → Option (Guarded ParseError Row)
  | .binary op =>
      (row.findIdx? (Slot.holds (.operator (.binary op)))).map fun index =>
        reduceBinary greatest limit op index row
  | .not =>
      (lastIndex? .not row).map fun index =>
        reduceNegation greatest limit index row

theorem length_of_takeOperand
    {operator : Operator}
    {side : Side}
    {index : Nat}
    {row rest : Row}
    {subtree : Subtree}
    (taken : takeOperand operator side index row = .ok (subtree, rest)) :
    rest.length + 1 = row.length := by
  unfold takeOperand at taken
  split at taken
  · cases taken
  · simp only [bind_eq_ok_iff, Prod.exists] at taken
    obtain ⟨slot, left, removed, _, -, taken⟩ := taken
    cases taken
    exact length_of_remove removed

theorem length_lt_of_step?
    {greatest limit : Nat}
    {row next : Row}
    {operator : Operator}
    (stepped : step? greatest limit row operator = some (.ok next)) :
    next.length < row.length := by
  cases operator with
  | binary op =>
      obtain ⟨index, -, reduced⟩ := Option.map_eq_some_iff.mp stepped
      simp only [reduceBinary, bind_eq_ok_iff, Prod.exists] at reduced
      obtain ⟨_, -, _, -, _, withoutRight, rightTaken, reduced⟩ := reduced
      split at reduced
      · cases reduced
      · simp only [bind_eq_ok_iff, Prod.exists] at reduced
        obtain ⟨_, -, _, rest, leftTaken, _, -, overwritten⟩ := reduced
        have rightLength := length_of_takeOperand rightTaken
        have leftLength := length_of_takeOperand leftTaken
        have nextLength := length_of_overwrite overwritten
        omega
  | not =>
      obtain ⟨index, -, reduced⟩ := Option.map_eq_some_iff.mp stepped
      simp only [reduceNegation, bind_eq_ok_iff, Prod.exists] at reduced
      obtain ⟨_, -, _, -, _, rest, taken, _, -, overwritten⟩ := reduced
      have takenLength := length_of_takeOperand taken
      have nextLength := length_of_overwrite overwritten
      omega

/-- Reduce until no operator of a kind is left. -/
def exhaust
    (greatest limit : Nat)
    (row : Row)
    (operator : Operator) : Guarded ParseError Row :=
  match _stepped : step? greatest limit row operator with
  | none => .ok row
  | some (.error stop) => .error stop
  | some (.ok next) => exhaust greatest limit next operator
termination_by row.length
decreasing_by exact length_lt_of_step? _stepped

section

variable {greatest limit : Nat} {row : Row} {operator : Operator}

theorem exhaust_of_step?_eq_none
    (ended : step? greatest limit row operator = none) :
    exhaust greatest limit row operator = .ok row := by
  rw [exhaust]
  split <;> simp_all

theorem exhaust_of_step?_eq_some
    {outcome : Guarded ParseError Row}
    (stepped : step? greatest limit row operator = some outcome) :
    exhaust greatest limit row operator =
      outcome >>= fun next => exhaust greatest limit next operator := by
  rw [exhaust]
  split
  · simp_all
  · rename_i stop stopped
    rw [stepped, Option.some.injEq] at stopped
    subst stopped
    rfl
  · rename_i next succeeded
    rw [stepped, Option.some.injEq] at succeeded
    subst succeeded
    rfl

end

/-- The operators in the order in which they are reduced. -/
def operators : List Operator :=
  (Comparison.resolutionOrder.map fun kind => .binary (.comparison kind)) ++
    [.not, .binary .and, .binary .or]

/-! ## Rows -/

/-- Reduce a row without groups to its one subexpression. -/
def assemble
    (greatest limit : Nat)
    (row : Row) : Guarded ParseError Subtree := do
  let reduced ← operators.foldlM (exhaust greatest limit)
    (row.map Slot.toLeaf)
  Guarded.unbreached reduced.single

/-- How a stop in the contents of a group is reported outside the group. -/
def outsideGroup : Stop ParseError → Stop ParseError
  | .fault error => .fault error.outsideGroup
  | .breach breach => .breach breach

/-- Reduce a row that has `level` groups around it. -/
def reduce
    (capacity : Capacity)
    (limit level : Nat)
    (row : Row) : Guarded ParseError Subtree :=
  if limit < level then
    .error (.fault (.tooDeep limit))
  else
    match _taken : takeGroup capacity row with
    | .error stop => .error stop
    | .ok none => assemble capacity.count limit row
    | .ok (some group) =>
        match Guarded.increment capacity.count level with
        | .error stop => .error stop
        | .ok deeper =>
            match reduce capacity limit deeper group.contents with
            | .error stop => .error (outsideGroup stop)
            | .ok subtree =>
                match _inserted :
                    insert group.index (.group subtree) group.rest with
                | .error stop => .error stop
                | .ok next => reduce capacity limit level next
termination_by row.length
decreasing_by
  · have taken := length_of_takeGroup _taken
    omega
  · have taken := length_of_takeGroup _taken
    have inserted := length_of_insert _inserted
    omega

section

variable {capacity : Capacity} {limit level : Nat} {row : Row}

theorem reduce_of_takeGroup_error
    {stop : Stop ParseError}
    (stopped : takeGroup capacity row = .error stop) :
    reduce capacity limit level row =
      if limit < level then
        .error (.fault (.tooDeep limit))
      else
        .error stop := by
  rw [reduce]
  congr 1
  split <;> simp_all

theorem reduce_of_takeGroup_none
    (noGroup : takeGroup capacity row = .ok none) :
    reduce capacity limit level row =
      if limit < level then
        .error (.fault (.tooDeep limit))
      else
        assemble capacity.count limit row := by
  rw [reduce]
  congr 1
  split <;> simp_all

/-- The first group is taken out, reduced to a subexpression and put in again. -/
theorem reduce_of_takeGroup_some
    {group : TakenGroup}
    (taken : takeGroup capacity row = .ok (some group)) :
    reduce capacity limit level row =
      if limit < level then
        .error (.fault (.tooDeep limit))
      else
        Guarded.increment capacity.count level >>= fun deeper =>
          (reduce capacity limit deeper group.contents).mapError
              outsideGroup >>= fun subtree =>
            insert group.index (.group subtree) group.rest >>= fun next =>
              reduce capacity limit level next := by
  rw [reduce]
  congr 1
  split
  · simp_all
  · simp_all
  · rename_i other otherTaken
    rw [taken, Except.ok.injEq, Option.some.injEq] at otherTaken
    subst otherTaken
    split
    · rename_i stop stopped
      rw [stopped]
      rfl
    · rename_i deeper counted
      rw [counted, ok_bind]
      split
      · rename_i stop stopped
        rw [stopped]
        rfl
      · rename_i subtree reduced
        rw [reduced]
        change _ = (insert group.index (.group subtree) group.rest >>= _)
        split
        · rename_i stop stopped
          rw [stopped]
          rfl
        · rename_i next inserted
          rw [inserted, ok_bind]

end

/-- The expression of a list of tokens. -/
def parse
    (capacity : Capacity)
    (maxDepth : Nat)
    (tokens : List Token) : Guarded ParseError Expr := do
  let subtree ← reduce capacity maxDepth 0 (Row.ofTokens tokens)
  return subtree.tree

end InPlace
end FilterLang
