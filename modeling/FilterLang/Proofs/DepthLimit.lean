import FilterLang.Parse

/-!
# The depth limit is a threshold

A run under a limit has a threshold when the limit decides only whether the run
is cut off: from the threshold on every limit gives the same outcome, in which
the limit has no part, and every smaller limit gives the error that names it.
Steps with thresholds make up runs with thresholds, so the whole parser has one.
Every operator and every pair of parentheses takes up tokens, which bounds the
threshold by their number.
-/

namespace FilterLang

variable {α β : Type}

/-- The limit has no part in an outcome. -/
def Unlimited (outcome : Except ParseError α) : Prop :=
  ∀ error, outcome = .error error →
    ∀ limit, ParseError.tooDeep limit ∉ error :: error.causes

theorem unlimited_ok (value : α) :
    Unlimited (.ok value) := by
  intro error failed
  simp at failed

/-- An error that is neither the limit's own nor from inside a group. -/
theorem unlimited_error
    {error : ParseError}
    (noCauses : error.causes = [])
    (notTooDeep : ∀ limit, error ≠ .tooDeep limit) :
    Unlimited (.error error : Except ParseError α) := by
  rintro other ⟨⟩ limit
  rw [noCauses, List.mem_singleton]
  exact (notTooDeep limit).symm

/-- A run has a threshold of at most a bound, and where it is not cut off its
values have some property. -/
def HasThreshold
    (run : Nat → Except ParseError α)
    (bound : Nat)
    (property : α → Prop) : Prop :=
  ∃ threshold ≤ bound, ∃ outcome,
    Unlimited outcome ∧
    (∀ value, outcome = .ok value → property value) ∧
    (∀ limit, threshold ≤ limit → run limit = outcome) ∧
    ∀ limit < threshold, run limit = .error (.tooDeep limit)

namespace HasThreshold

variable {run : Nat → Except ParseError α} {bound : Nat} {property : α → Prop}

/-- What does not look at the limit has the threshold zero. -/
theorem of_unlimited
    {outcome : Except ParseError α}
    (unlimited : Unlimited outcome)
    (holds : ∀ value, outcome = .ok value → property value) :
    HasThreshold (fun _ => outcome) bound property := by
  refine ⟨0, Nat.zero_le bound, outcome, unlimited, holds, ?_, ?_⟩
  · intro limit _
    rfl
  · intro limit negative
    exact absurd negative (Nat.not_lt_zero limit)

theorem mono
    {smaller : Nat}
    {stronger : α → Prop}
    (threshold : HasThreshold run smaller stronger)
    (smaller_le : smaller ≤ bound)
    (implies : ∀ value, stronger value → property value) :
    HasThreshold run bound property := by
  obtain ⟨least, least_le, outcome, unlimited, holds, above, below⟩ := threshold
  refine ⟨least, Nat.le_trans least_le smaller_le, outcome, unlimited, ?_, above,
    below⟩
  intro value succeeded
  exact implies value (holds value succeeded)

/-- A value that is reached under a limit has the property. -/
theorem holds_of_ok
    {limit : Nat}
    {value : α}
    (threshold : HasThreshold run bound property)
    (succeeded : run limit = .ok value) :
    property value := by
  obtain ⟨least, -, outcome, -, holds, above, below⟩ := threshold
  rcases Nat.lt_or_ge limit least with less | enough
  · rw [below limit less] at succeeded
    cases succeeded
  · rw [above limit enough] at succeeded
    exact holds value succeeded

/-- A value is reached under some limit. -/
theorem reached (threshold : HasThreshold run bound property) :
    HasThreshold run bound
      (fun value => property value ∧ ∃ limit, run limit = .ok value) := by
  obtain ⟨least, least_le, outcome, unlimited, holds, above, below⟩ := threshold
  refine ⟨least, least_le, outcome, unlimited, ?_, above, below⟩
  rintro value rfl
  exact ⟨holds value rfl, least, above least (Nat.le_refl least)⟩

/-- The threshold of two steps, one after the other, is the greater one. -/
theorem bind
    {next : Nat → α → Except ParseError β}
    {later : β → Prop}
    (first : HasThreshold run bound property)
    (second : ∀ value, property value →
      HasThreshold (fun limit => next limit value) bound later) :
    HasThreshold (fun limit => run limit >>= next limit) bound later := by
  obtain ⟨firstLeast, firstLe, outcome, unlimited, holds, above, below⟩ := first
  have cutOff :
      ∀ limit < firstLeast,
        run limit >>= next limit = .error (.tooDeep limit) := by
    intro limit less
    rw [below limit less]
    rfl
  cases outcome with
  | error fault =>
      refine ⟨firstLeast, firstLe, .error fault, ?_, by simp, ?_, cutOff⟩
      · rintro error ⟨⟩
        exact unlimited fault rfl
      · intro limit enough
        simp only [above limit enough]
        rfl
  | ok value =>
      obtain ⟨secondLeast, secondLe, final, finalUnlimited, finalHolds,
        secondAbove, secondBelow⟩ := second value (holds value rfl)
      have continued :
          ∀ limit, firstLeast ≤ limit →
            run limit >>= next limit = next limit value := by
        intro limit enough
        rw [above limit enough, ok_bind]
      refine ⟨max firstLeast secondLeast, Nat.max_le.mpr ⟨firstLe, secondLe⟩,
        final, finalUnlimited, finalHolds, ?_, ?_⟩
      · intro limit enough
        obtain ⟨enoughFirst, enoughSecond⟩ := Nat.max_le.mp enough
        exact (continued limit enoughFirst).trans
          (secondAbove limit enoughSecond)
      · intro limit less
        by_cases enoughFirst : firstLeast ≤ limit
        · exact (continued limit enoughFirst).trans
            (secondBelow limit (by omega))
        · exact cutOff limit (Nat.lt_of_not_le enoughFirst)

/-- A run that is refused at once when the limit is less than its level. -/
theorem guarded
    {level : Nat}
    (threshold : HasThreshold run bound property)
    (level_le : level ≤ bound) :
    HasThreshold
      (fun limit => if limit < level then .error (.tooDeep limit) else run limit)
      bound property := by
  obtain ⟨least, least_le, outcome, unlimited, holds, above, below⟩ := threshold
  refine ⟨max level least, Nat.max_le.mpr ⟨level_le, least_le⟩, outcome,
    unlimited, holds, ?_, ?_⟩
  · intro limit enough
    obtain ⟨enoughLevel, enoughLeast⟩ := Nat.max_le.mp enough
    simp only [Nat.not_lt.mpr enoughLevel, if_false]
    exact above limit enoughLeast
  · intro limit less
    by_cases refused : limit < level
    · simp only [refused, if_true]
    · simp only [refused, if_false]
      exact below limit (by omega)

/-- Outside a group, the threshold is that of the contents. -/
theorem outsideGroup
    (threshold : HasThreshold run bound property) :
    HasThreshold (fun limit => (run limit).mapError ParseError.outsideGroup)
      bound property := by
  obtain ⟨least, least_le, outcome, unlimited, holds, above, below⟩ := threshold
  refine ⟨least, least_le, outcome.mapError ParseError.outsideGroup, ?_, ?_, ?_,
    ?_⟩
  · cases outcome with
    | ok value => exact unlimited_ok value
    | error fault =>
        have notTooDeep : ∀ limit, fault ≠ .tooDeep limit := by
          rintro limit rfl
          exact unlimited _ rfl limit List.mem_cons_self
        rintro error ⟨⟩ limit
        rw [ParseError.outsideGroup_of_ne_tooDeep notTooDeep,
          ParseError.causes, List.mem_cons, not_or]
        exact ⟨by simp, unlimited fault rfl limit⟩
  · intro value succeeded
    exact holds value (mapError_eq_ok_iff.mp succeeded)
  · intro limit enough
    simp only [above limit enough]
  · intro limit less
    simp only [below limit less]
    rfl

end HasThreshold

/-! ## Steps -/

/-- The depth of the subexpression in a slot. -/
def Slot.depth : Slot → Nat
  | token _ => 0
  | node subtree => subtree.depth
  | group subtree => subtree.depth

theorem Slot.depth_of_operand
    {operator : Operator}
    {side : Side}
    {slot : Slot}
    {subtree : Subtree}
    (taken : slot.operand operator side = .ok subtree) :
    slot.depth = subtree.depth := by
  rcases operand_eq_ok_iff.mp taken with ⟨rfl, -⟩ | ⟨rfl, -⟩
  · rfl
  · rfl

theorem Slot.unlimited_operand
    (operator : Operator)
    (side : Side)
    (slot : Slot) :
    Unlimited (slot.operand operator side) := by
  cases slot with
  | token found => exact unlimited_error rfl (by simp)
  | node subtree =>
      simp only [operand]
      split
      · exact unlimited_error rfl (by simp)
      · exact unlimited_ok subtree
  | group subtree =>
      simp only [operand]
      split
      · exact unlimited_error rfl (by simp)
      · exact unlimited_ok subtree

namespace Row

/-- A bound leaves room for a row when no subexpression of the row can become
deeper than the bound, even if every token of the row adds to its depth. -/
def Room
    (bound : Nat)
    (row : Row) : Prop :=
  ∀ slot ∈ row, slot.depth + row.tokenCount ≤ bound

theorem unlimited_takeOperand
    (operator : Operator)
    (side : Side)
    (row : Row) :
    Unlimited (takeOperand operator side row) := by
  cases row with
  | nil => exact unlimited_error rfl (by simp)
  | cons slot row =>
      have unlimited := slot.unlimited_operand operator side
      rw [takeOperand]
      cases taken : slot.operand operator side with
      | ok subtree => exact unlimited_ok _
      | error fault =>
          rw [taken] at unlimited
          rintro error ⟨⟩
          exact unlimited fault rfl

theorem hasThreshold_takeOperand
    {operator : Operator}
    {side : Side}
    {row : Row}
    {bound : Nat} :
    HasThreshold (fun _ => takeOperand operator side row) bound
      (fun (subtree, rest) => ∃ slot, row = slot :: rest ∧
        slot.operand operator side = .ok subtree) :=
  .of_unlimited (unlimited_takeOperand operator side row)
    fun _ taken => takeOperand_eq_ok_iff.mp taken

theorem hasThreshold_depthAbove
    {depth bound : Nat}
    (within : depth < bound) :
    HasThreshold (fun limit => depthAbove limit depth) bound
      (· = depth + 1) := by
  refine ⟨depth + 1, within, .ok (depth + 1), unlimited_ok _, ?_, ?_, ?_⟩
  · rintro above ⟨⟩
    rfl
  · intro limit enough
    exact depthAbove_eq_ok_iff.mpr ⟨enough, rfl⟩
  · intro limit less
    simp only [depthAbove, if_neg (Nat.not_lt.mpr (Nat.le_of_lt_succ less))]

/-- A node in the place of an operator and its operands may be one deeper than
they are, for it takes the place of a token. -/
theorem Room.replace
    {bound : Nat}
    {front between back : Row}
    {subtree : Subtree}
    (room : Room bound (front ++ between ++ back))
    (shallow : ∃ slot ∈ between, subtree.depth ≤ slot.depth + between.tokenCount)
    {slot : Slot}
    (holds : slot = .node subtree ∨ slot = .group subtree) :
    Room bound (front ++ slot :: back) := by
  obtain ⟨deep, deepMember, shallow⟩ := shallow
  have count_eq : slot.tokenCount = 0 := by
    rcases holds with rfl | rfl <;> rfl
  have depth_eq : slot.depth = subtree.depth := by
    rcases holds with rfl | rfl <;> rfl
  have deepRoom := room deep (by simp [deepMember])
  intro other member
  simp only [tokenCount_append, tokenCount_cons, count_eq] at deepRoom ⊢
  rcases List.mem_append.mp member with inFront | inRest
  · have otherRoom := room other (by simp [inFront])
    simp only [tokenCount_append] at otherRoom
    omega
  · rcases List.mem_cons.mp inRest with rfl | inBack
    · omega
    · have otherRoom := room other (by simp [inBack])
      simp only [tokenCount_append] at otherRoom
      omega

theorem hasThreshold_reduceBinary
    {focus : Focus Slot BinaryOp}
    {operator : Token}
    {bound : Nat}
    (room : Room bound (Focus.fill focus.before (.token operator) focus.after)) :
    HasThreshold (fun limit => reduceBinary limit focus) bound (Room bound) := by
  refine .bind hasThreshold_takeOperand ?_
  rintro ⟨right, after⟩ ⟨rightSlot, after_eq, rightTaken⟩
  refine .bind hasThreshold_takeOperand ?_
  rintro ⟨left, before⟩ ⟨leftSlot, before_eq, leftTaken⟩
  have leftDepth := Slot.depth_of_operand leftTaken
  have rightDepth := Slot.depth_of_operand rightTaken
  have row_eq :
      Focus.fill focus.before (.token operator) focus.after =
        before.reverse ++ [leftSlot, .token operator, rightSlot] ++ after := by
    simp [Focus.fill_eq, before_eq, after_eq]
  rw [row_eq] at room
  -- The deeper operand is the slot that the room of the new node comes from.
  obtain ⟨deep, member, depth_eq⟩ :
      ∃ deep ∈ [leftSlot, .token operator, rightSlot],
        deep.depth = max left.depth right.depth := by
    rcases Nat.le_total left.depth right.depth with le | le
    · exact ⟨rightSlot, by simp, by omega⟩
    · exact ⟨leftSlot, by simp, by omega⟩
  have deepRoom :=
    room deep (List.mem_append_left _ (List.mem_append_right _ member))
  have within : max left.depth right.depth < bound := by
    simp only [tokenCount_append, tokenCount_cons, Slot.tokenCount_token]
      at deepRoom
    omega
  refine .bind (hasThreshold_depthAbove within) ?_
  rintro depth rfl
  refine .of_unlimited (unlimited_ok _) ?_
  rintro next ⟨⟩
  rw [Focus.fill_eq]
  refine room.replace ⟨deep, member, ?_⟩ (Or.inl rfl)
  simp only [tokenCount_cons, Slot.tokenCount_token]
  omega

theorem hasThreshold_reduceNegation
    {focus : Focus Slot Token}
    {operator : Token}
    {bound : Nat}
    (room : Room bound (Focus.fill focus.before (.token operator) focus.after)) :
    HasThreshold (fun limit => reduceNegation limit focus) bound
      (Room bound) := by
  refine .bind hasThreshold_takeOperand ?_
  rintro ⟨child, after⟩ ⟨slot, after_eq, taken⟩
  have depth_eq := Slot.depth_of_operand taken
  have row_eq :
      Focus.fill focus.before (.token operator) focus.after =
        focus.before.reverse ++ [.token operator, slot] ++ after := by
    simp [Focus.fill_eq, after_eq]
  rw [row_eq] at room
  have slotRoom := room slot (by simp)
  have within : child.depth < bound := by
    simp only [tokenCount_append, tokenCount_cons, Slot.tokenCount_token]
      at slotRoom
    omega
  refine .bind (hasThreshold_depthAbove within) ?_
  rintro depth rfl
  refine .of_unlimited (unlimited_ok _) ?_
  rintro next ⟨⟩
  rw [Focus.fill_eq]
  refine room.replace ⟨slot, by simp, ?_⟩ (Or.inl rfl)
  simp only [tokenCount_cons, Slot.tokenCount_token]
  omega

end Row

namespace Phase

/-- A phase either ends under every limit or takes a step under every limit, and
the step has a threshold. -/
theorem hasThreshold_step?
    {row : Row}
    {bound : Nat}
    (phase : Phase)
    (room : row.Room bound) :
    (∀ limit, phase.step? limit row = none) ∨
      ∃ run, (∀ limit, phase.step? limit row = some (run limit)) ∧
        HasThreshold run bound (Row.Room bound) := by
  cases phase with
  | binary ops =>
      cases selected : Focus.first? (Slot.binaryOp? ops) row with
      | none =>
          left
          intro limit
          rw [step?, selected, Option.map_none]
      | some focus =>
          right
          obtain ⟨slot, slotSelected, rfl, -⟩ :=
            Focus.first?_eq_some_iff.mp selected
          obtain ⟨-, operator, rfl, -⟩ :=
            Slot.binaryOp?_eq_some_iff.mp slotSelected
          refine ⟨fun limit => Row.reduceBinary limit focus, ?_,
            Row.hasThreshold_reduceBinary room⟩
          intro limit
          rw [step?, selected, Option.map_some]
  | negation =>
      cases selected : Focus.last? Slot.negation? row with
      | none =>
          left
          intro limit
          rw [step?, selected, Option.map_none]
      | some focus =>
          right
          obtain ⟨slot, slotSelected, rfl, -⟩ :=
            Focus.last?_eq_some_iff.mp selected
          obtain ⟨rfl, -⟩ := Slot.negation?_eq_some_iff.mp slotSelected
          refine ⟨fun limit => Row.reduceNegation limit focus, ?_,
            Row.hasThreshold_reduceNegation room⟩
          intro limit
          rw [step?, selected, Option.map_some]

/-- Along a phase the tokens become fewer, so its threshold is the greatest of
those of finitely many steps. -/
theorem hasThreshold_exhaust
    {bound : Nat}
    {row : Row}
    (phase : Phase)
    (room : row.Room bound) :
    HasThreshold (fun limit => phase.exhaust limit row) bound
      (Row.Room bound) := by
  induction count_eq : row.tokenCount using Nat.strongRecOn generalizing row with
  | ind count hypothesis =>
      rcases phase.hasThreshold_step? room with ended | ⟨run, stepped, threshold⟩
      · simp only [exhaust_of_step?_eq_none (ended _)]
        refine .of_unlimited (unlimited_ok row) ?_
        rintro final ⟨⟩
        exact room
      · simp only [exhaust_of_step?_eq_some (stepped _)]
        refine threshold.reached.bind ?_
        rintro next ⟨nextRoom, limit, reached⟩
        have succeeded : phase.step? limit row = some (.ok next) := by
          rw [stepped, reached]
        refine hypothesis next.tokenCount ?_ nextRoom rfl
        rw [← count_eq]
        exact tokenCount_of_step? succeeded

theorem hasThreshold_exhaustAll
    {bound : Nat}
    {row : Row}
    (schedule : List Phase)
    (room : row.Room bound) :
    HasThreshold
      (fun limit => schedule.foldlM (fun row phase => phase.exhaust limit row) row)
      bound (Row.Room bound) := by
  induction schedule generalizing row with
  | nil =>
      refine .of_unlimited (unlimited_ok row) ?_
      rintro final ⟨⟩
      exact room
  | cons phase schedule hypothesis =>
      simp only [List.foldlM_cons]
      exact (phase.hasThreshold_exhaust room).bind fun next nextRoom =>
        hypothesis nextRoom

end Phase

/-! ## Rows -/

namespace Slot

theorem depth_toLeaf (slot : Slot) :
    slot.toLeaf.depth = slot.depth := by
  cases slot with
  | token found =>
      obtain ⟨kind, text, span⟩ := found
      cases kind <;> rfl
  | node subtree => rfl
  | group subtree => rfl

theorem tokenCount_toLeaf_le (slot : Slot) :
    slot.toLeaf.tokenCount ≤ slot.tokenCount := by
  cases slot with
  | token found =>
      obtain ⟨kind, text, span⟩ := found
      cases kind <;> simp [toLeaf]
  | node subtree => exact Nat.le_refl _
  | group subtree => exact Nat.le_refl _

end Slot

namespace Row

theorem tokenCount_map_toLeaf_le (row : Row) :
    tokenCount (row.map Slot.toLeaf) ≤ row.tokenCount := by
  induction row with
  | nil => exact Nat.le_refl 0
  | cons slot row hypothesis =>
      exact Nat.add_le_add slot.tokenCount_toLeaf_le hypothesis

theorem Room.map_toLeaf
    {bound : Nat}
    {row : Row}
    (room : Room bound row) :
    Room bound (row.map Slot.toLeaf) := by
  intro leaf leafMember
  obtain ⟨slot, member, rfl⟩ := List.mem_map.mp leafMember
  have slotRoom := room slot member
  have fewer := row.tokenCount_map_toLeaf_le
  rw [slot.depth_toLeaf]
  omega

theorem unlimited_single (row : Row) :
    Unlimited row.single := by
  unfold single
  split
  · exact unlimited_ok _
  · exact unlimited_ok _
  · exact unlimited_error rfl (by simp)

theorem hasThreshold_single
    {bound : Nat}
    {row : Row}
    (room : Room bound row) :
    HasThreshold (fun _ => row.single) bound
      (fun subtree => subtree.depth ≤ bound) := by
  refine .of_unlimited row.unlimited_single ?_
  intro subtree isSingle
  obtain ⟨slot, rfl, taken⟩ := single_eq_ok_iff.mp isSingle
  have slotRoom := room slot (List.mem_singleton_self slot)
  rw [Slot.depth_of_operand taken] at slotRoom
  omega

theorem hasThreshold_assemble
    {bound : Nat}
    {row : Row}
    (schedule : List Phase)
    (room : Room bound row) :
    HasThreshold (fun limit => row.assemble schedule limit) bound
      (fun subtree => subtree.depth ≤ bound) :=
  (Phase.hasThreshold_exhaustAll schedule room.map_toLeaf).bind
    fun _ finalRoom => hasThreshold_single finalRoom

theorem unlimited_firstGroup? (row : Row) :
    Unlimited row.firstGroup? := by
  unfold firstGroup?
  split
  · exact unlimited_ok _
  · split
    · exact unlimited_error rfl (by simp)
    · split
      · exact unlimited_error rfl (by simp)
      · split
        · exact unlimited_error rfl (by simp)
        · exact unlimited_ok _

/-- The contents of a group have room below the row's own bound, since the rest
of the row has its tokens, too. -/
theorem Room.contents
    {bound : Nat}
    {row : Row}
    {group : Group}
    (room : Room bound row)
    (found : row.firstGroup? = .ok (some group)) :
    Room (bound - (row.tokenCount - group.contents.tokenCount))
      group.contents := by
  have fewer := tokenCount_contents found
  obtain ⟨opening, closing, -, -, row_eq, -⟩ := firstGroup?_eq_some_iff.mp found
  intro slot member
  have slotRoom := room slot (by simp [row_eq, Focus.fill_eq, member])
  omega

theorem Room.fill
    {bound : Nat}
    {row : Row}
    {group : Group}
    {subtree : Subtree}
    (room : Room bound row)
    (found : row.firstGroup? = .ok (some group))
    (shallow : subtree.depth ≤
      bound - (row.tokenCount - group.contents.tokenCount)) :
    Room bound (group.fill subtree) := by
  have counts := tokenCount_of_firstGroup? found
  obtain ⟨opening, closing, -, -, row_eq, -⟩ := firstGroup?_eq_some_iff.mp found
  intro slot member
  have openingRoom := room (.token opening) (by simp [row_eq, Focus.fill_eq])
  simp only [Group.fill, Focus.fill_eq, tokenCount_append, tokenCount_reverse,
    tokenCount_cons, Slot.tokenCount_group, List.mem_append, List.mem_reverse,
    List.mem_cons] at member ⊢
  rcases member with inFront | rfl | inBack
  · have slotRoom := room slot (by simp [row_eq, Focus.fill_eq, inFront])
    omega
  · simp only [Slot.depth] at openingRoom ⊢
    omega
  · have slotRoom := room slot (by simp [row_eq, Focus.fill_eq, inBack])
    omega

/-- The reduction of a row has a threshold. Every group around the row counts
for it, as does every token of the row. -/
theorem hasThreshold_reduce
    {bound : Nat}
    {row : Row}
    (schedule : List Phase)
    (level : Nat)
    (room : Room bound row) :
    HasThreshold (fun limit => reduce schedule limit level row) (level + bound)
      (fun subtree => subtree.depth ≤ bound) := by
  -- Both the contents of a group and the row with the group filled in have
  -- fewer tokens than the row.
  induction count_eq : row.tokenCount using Nat.strongRecOn
      generalizing row bound level with
  | ind count hypothesis =>
      subst count_eq
      have refusal_le : level ≤ level + bound := Nat.le_add_right level bound
      have unlimited := row.unlimited_firstGroup?
      cases found : row.firstGroup? with
      | error fault =>
          simp only [reduce_of_firstGroup?_error found]
          refine .guarded (.of_unlimited ?_ ?_) refusal_le
          · rintro error ⟨⟩
            exact unlimited fault found
          · simp
      | ok group? =>
          cases group? with
          | none =>
              simp only [reduce_of_firstGroup?_none found]
              refine .guarded ?_ refusal_le
              exact (hasThreshold_assemble schedule room).mono
                (Nat.le_add_left bound level) fun _ shallow => shallow
          | some group =>
              simp only [reduce_of_firstGroup?_some found]
              have fewer := tokenCount_contents found
              obtain ⟨opening, closing, -, -, row_eq, -⟩ :=
                firstGroup?_eq_some_iff.mp found
              have openingRoom :=
                room (.token opening) (by simp [row_eq, Focus.fill_eq])
              have inner := hypothesis _ fewer (level + 1)
                (room.contents found) rfl
              have innerBound :
                  level + 1 +
                      (bound - (row.tokenCount - group.contents.tokenCount)) ≤
                    level + bound := by
                omega
              refine .guarded (.bind
                ((inner.outsideGroup).mono innerBound fun _ shallow => shallow)
                ?_) refusal_le
              intro subtree shallow
              exact hypothesis _ (tokenCount_fill_group found subtree) level
                (room.fill found shallow) rfl

theorem tokenCount_ofTokens (tokens : List Token) :
    tokenCount (ofTokens tokens) = tokens.length := by
  induction tokens with
  | nil => rfl
  | cons token tokens hypothesis =>
      rw [ofTokens, List.map_cons, tokenCount_cons, Slot.tokenCount_token,
        List.length_cons, ← hypothesis, Nat.add_comm]
      rfl

theorem room_ofTokens (tokens : List Token) :
    Room tokens.length (ofTokens tokens) := by
  intro slot member
  obtain ⟨token, -, rfl⟩ := List.mem_map.mp member
  have depth_eq : (Slot.token token).depth = 0 := rfl
  have count_eq := tokenCount_ofTokens tokens
  omega

end Row

/-- The limit on depth is a sharp threshold: from a limit on that is at most the
number of tokens, parsing has one outcome, in which the limit has no part; under
every smaller limit parsing gives the bare error that names the limit. -/
theorem parse_sharp_threshold (tokens : List Token) :
    ∃ threshold ≤ tokens.length, ∃ outcome : Except ParseError Expr,
      (∀ error, outcome = .error error →
        ∀ limit, ParseError.tooDeep limit ∉ error :: error.causes) ∧
      (∀ maxDepth, threshold ≤ maxDepth → parse maxDepth tokens = outcome) ∧
      ∀ maxDepth < threshold,
        parse maxDepth tokens = .error (.tooDeep maxDepth) := by
  have reduced :=
    Row.hasThreshold_reduce Phase.standard 0 (Row.room_ofTokens tokens)
  rw [Nat.zero_add] at reduced
  have parsed :
      HasThreshold (fun maxDepth => parse maxDepth tokens) tokens.length
        (fun _ => True) :=
    reduced.bind fun subtree _ =>
      .of_unlimited (unlimited_ok subtree.tree) fun _ _ => trivial
  obtain ⟨threshold, threshold_le, outcome, unlimited, -, above, below⟩ := parsed
  exact ⟨threshold, threshold_le, outcome, unlimited, above, below⟩

end FilterLang
