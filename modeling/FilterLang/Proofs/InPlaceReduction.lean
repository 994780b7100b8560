import FilterLang.Proofs.DepthCounter
import FilterLang.Proofs.TokenUse
import FilterLang.Row.InPlace

/-!
# Reductions in place break no bound

An index that has been worked out before slots are taken out still points at the
slot that was meant: behind the operands, the operator stands where they began,
and the group goes back in where its opening parenthesis stood. So a reduction
in place does what the reduction does. Every number in it is bounded by the
tokens: no row grows, a group around a row has used up tokens, and so has every
operator in a subexpression.
-/

namespace FilterLang

namespace Slot

variable {kind : TokenKind} {slot : Slot}

theorem holds_token
    {found : Token}
    (isKind : found.kind = kind) :
    (token found).holds kind := by
  simp [holds, token?, isKind]

theorem holds_eq_false_iff :
    slot.holds kind = false ↔ ∀ found ∈ slot.token?, found.kind ≠ kind := by
  cases slot <;> simp [holds, token?]

theorem openParen?_eq_none_iff_holds :
    slot.openParen? = none ↔ slot.holds .openParen = false := by
  rw [openParen?_eq_none_iff, holds_eq_false_iff]

theorem isSome_openParen? (slot : Slot) :
    slot.openParen?.isSome = slot.holds .openParen := by
  cases holdsIt : slot.holds .openParen with
  | false => rw [openParen?_eq_none_iff_holds.mpr holdsIt, Option.isSome_none]
  | true =>
      rw [Option.isSome_iff_ne_none, ne_eq, openParen?_eq_none_iff_holds,
        holdsIt]
      exact Bool.true_eq_false.mp

theorem negation?_eq_none_iff_holds :
    slot.negation? = none ↔ slot.holds .not = false := by
  rw [negation?_eq_none_iff, holds_eq_false_iff]

theorem binaryOp?_eq_none_iff_holds
    {op : BinaryOp} :
    slot.binaryOp? [op] = none ↔
      slot.holds (.operator (.binary op)) = false := by
  simp [binaryOp?_eq_none_iff, holds_eq_false_iff]

end Slot

/-- The phase that reduces one operator. -/
def Phase.ofOperator : Operator → Phase
  | .binary op => binary [op]
  | .not => negation

namespace InPlace

variable {greatest limit : Nat} {front back row : Row} {slot : Slot}

/-! ## Slots by index -/

theorem slotAt_append :
    slotAt front.length (front ++ slot :: back) = .ok slot := by
  simp [slotAt]

theorem remove_append :
    remove front.length (front ++ slot :: back) =
      .ok (slot, front ++ back) := by
  simp [remove, List.eraseIdx_append_of_length_le]

theorem pop_append :
    pop (front ++ [slot]) = .ok (slot, front) := by
  simp [pop]

theorem drain_append
    {group : Row}
    {last : Nat}
    (nonempty : group ≠ [])
    (isLast : last + 1 = front.length + group.length) :
    drain front.length last (front ++ group ++ back) =
      .ok (group, front ++ back) := by
  have length_pos := List.length_pos_iff.mpr nonempty
  have inRange :
      front.length ≤ last ∧ last < (front ++ group ++ back).length := by
    simp only [List.length_append]
    omega
  rw [drain, if_pos inRange, isLast, ← List.length_append, List.take_left,
    List.drop_left, List.drop_left, List.append_assoc, List.take_left]

theorem insert_append :
    insert front.length slot (front ++ back) = .ok (front ++ slot :: back) := by
  have inserted :
      (front ++ back).insertIdx front.length slot = front ++ slot :: back := by
    induction front with
    | nil => rfl
    | cons other front hypothesis =>
        rw [List.cons_append, List.length_cons, List.insertIdx_succ_cons,
          hypothesis, List.cons_append]
  rw [insert, inserted, if_pos (by simp)]

theorem overwrite_append
    {meant : Slot} :
    overwrite front.length meant slot (front ++ meant :: back) =
      .ok (front ++ slot :: back) := by
  simp [overwrite]

theorem findIdx?_append
    {kind : TokenKind}
    (found : slot.holds kind)
    (before : ∀ other ∈ front, other.holds kind = false) :
    (front ++ slot :: back).findIdx? (Slot.holds kind) =
      some front.length := by
  rw [List.findIdx?_append, List.findIdx?_eq_none_iff.mpr before,
    List.findIdx?_cons, if_pos found]
  simp

theorem lastIndex?_append
    {kind : TokenKind}
    (found : slot.holds kind)
    (behind : ∀ other ∈ back, other.holds kind = false) :
    lastIndex? kind (front ++ slot :: back) = some front.length := by
  have mirrored :
      (front ++ slot :: back).reverse =
        back.reverse ++ slot :: front.reverse := by
    simp
  rw [lastIndex?, mirrored, findIdx?_append found]
  · simp
  · intro other member
    exact behind other (List.mem_reverse.mp member)

/-! ## Operators -/

/-- A row can be counted, and so can the depth of whatever may be made of it. -/
structure Fits
    (greatest : Nat)
    (row : Row) : Prop where
  /-- Every index can be counted. -/
  length_le : row.length ≤ greatest
  /-- Every depth can be counted. -/
  room : row.Room greatest

theorem Fits.index_lt (fits : Fits greatest (front ++ slot :: back)) :
    front.length < greatest := by
  have length_le := fits.length_le
  simp only [List.length_append, List.length_cons] at length_le
  omega

/-- Where a token is left, an operand can become one level deeper. -/
theorem Fits.depth_lt
    {operator : Operator}
    {side : Side}
    {subtree : Subtree}
    (fits : Fits greatest row)
    (tokenLeft : 0 < row.tokenCount)
    (member : slot ∈ row)
    (taken : slot.operand operator side = .ok subtree) :
    subtree.depth < greatest := by
  have slotRoom := fits.room slot member
  rw [Slot.depth_of_operand taken] at slotRoom
  omega

theorem tokenCount_pos
    (front back : Row)
    (mark : Token) :
    0 < Row.tokenCount (front ++ .token mark :: back) := by
  simp only [Row.tokenCount_append, Row.tokenCount_cons,
    Slot.tokenCount_token]
  omega

theorem takeOperand_behind
    {operator : Operator}
    {side : Side}
    {mark : Slot} :
    takeOperand operator side (front.length + 1) (front ++ mark :: back) =
      .unbreached ((Row.takeOperand operator side back).map
        fun (subtree, rest) => (subtree, front ++ mark :: rest)) := by
  cases back with
  | nil => simp [takeOperand, Row.takeOperand, Except.map]
  | cons slot back =>
      have parts :
          front ++ mark :: slot :: back =
            (front ++ [mark]) ++ slot :: back := by
        simp
      have inRange :
          ¬(front ++ mark :: slot :: back).length ≤ front.length + 1 := by
        simp
      have index_eq : front.length + 1 = (front ++ [mark]).length := by
        simp
      rw [takeOperand, if_neg inRange, parts, index_eq, remove_append]
      simp only [ok_bind, Row.takeOperand]
      cases slot.operand operator side with
      | error fault => rfl
      | ok subtree => simp [Except.map, bind, Except.bind, pure, Except.pure]

theorem takeOperand_before
    {operator : Operator}
    {side : Side}
    {mark nearest : Slot}
    {before : Row} :
    takeOperand operator side before.length
        ((nearest :: before).reverse ++ mark :: back) =
      .unbreached ((Row.takeOperand operator side (nearest :: before)).map
        fun (subtree, rest) => (subtree, rest.reverse ++ mark :: back)) := by
  have parts :
      (nearest :: before).reverse ++ mark :: back =
        before.reverse ++ nearest :: mark :: back := by
    simp
  have inRange :
      ¬(before.reverse ++ nearest :: mark :: back).length ≤ before.length := by
    simp
  rw [takeOperand, parts, if_neg inRange, ← List.length_reverse, remove_append]
  simp only [ok_bind, Row.takeOperand]
  cases nearest.operand operator side with
  | error fault => rfl
  | ok subtree => rfl

theorem depthAbove_eq
    {depth : Nat}
    (less : depth < greatest) :
    depthAbove greatest limit depth =
      .unbreached (Row.depthAbove limit depth) := by
  unfold depthAbove Row.depthAbove
  by_cases within : depth < limit
  · rw [if_neg (Nat.not_le.mpr within), if_pos within,
      Guarded.increment_of_lt less, Guarded.unbreached_ok]
  · rw [if_pos (Nat.le_of_not_lt within), if_neg within,
      Guarded.unbreached_error]

/-- Behind the operands of a binary operator, the operator is what stands at the
index of its left operand. -/
theorem reduceBinary_eq
    {focus : Focus Slot BinaryOp}
    {mark : Token}
    (fits : Fits greatest
      (Focus.fill focus.before (.token mark) focus.after)) :
    reduceBinary greatest limit focus.found focus.before.length
        (Focus.fill focus.before (.token mark) focus.after) =
      .unbreached (Row.reduceBinary limit focus) := by
  obtain ⟨before, op, after⟩ := focus
  simp only [Focus.fill_eq] at fits ⊢
  have tokenLeft := tokenCount_pos before.reverse after mark
  simp only [reduceBinary, Row.reduceBinary]
  rw [← List.length_reverse, slotAt_append, ok_bind,
    Guarded.increment_of_lt fits.index_lt, ok_bind, takeOperand_behind]
  cases rightTaken : Row.takeOperand (.binary op) .right after with
  | error fault => rfl
  | ok operand =>
      obtain ⟨right, behind⟩ := operand
      obtain ⟨rightSlot, rfl, rightOperand⟩ :=
        Row.takeOperand_eq_ok_iff.mp rightTaken
      have rightDepth := fits.depth_lt tokenLeft (by simp) rightOperand
      simp only [Except.map, Guarded.unbreached_ok, ok_bind]
      cases before with
      | nil => rfl
      | cons leftSlot before =>
          rw [if_neg (by simp), List.length_reverse, List.length_cons,
            Guarded.decrement, ok_bind, takeOperand_before]
          cases leftTaken :
              Row.takeOperand (.binary op) .left (leftSlot :: before) with
          | error fault => rfl
          | ok operand =>
              obtain ⟨left, front⟩ := operand
              obtain ⟨_, same, leftOperand⟩ :=
                Row.takeOperand_eq_ok_iff.mp leftTaken
              cases same
              have leftDepth := fits.depth_lt tokenLeft (by simp) leftOperand
              simp only [Except.map, Guarded.unbreached_ok, ok_bind]
              rw [depthAbove_eq (Nat.max_lt.mpr ⟨leftDepth, rightDepth⟩)]
              cases Row.depthAbove limit (max left.depth right.depth) with
              | error fault => rfl
              | ok depth =>
                  simp only [Guarded.unbreached_ok, ok_bind]
                  rw [← List.length_reverse, overwrite_append, Focus.fill_eq]
                  rfl

theorem reduceNegation_eq
    {focus : Focus Slot Token}
    {mark : Token}
    (fits : Fits greatest
      (Focus.fill focus.before (.token mark) focus.after)) :
    reduceNegation greatest limit focus.before.length
        (Focus.fill focus.before (.token mark) focus.after) =
      .unbreached (Row.reduceNegation limit focus) := by
  obtain ⟨before, found, after⟩ := focus
  simp only [Focus.fill_eq] at fits ⊢
  have tokenLeft := tokenCount_pos before.reverse after mark
  simp only [reduceNegation, Row.reduceNegation]
  rw [← List.length_reverse, slotAt_append, ok_bind,
    Guarded.increment_of_lt fits.index_lt, ok_bind, takeOperand_behind]
  cases taken : Row.takeOperand .not .right after with
  | error fault => rfl
  | ok operand =>
      obtain ⟨child, behind⟩ := operand
      obtain ⟨slot, rfl, childOperand⟩ := Row.takeOperand_eq_ok_iff.mp taken
      have childDepth := fits.depth_lt tokenLeft (by simp) childOperand
      simp only [Except.map, Guarded.unbreached_ok, ok_bind]
      rw [depthAbove_eq childDepth]
      cases Row.depthAbove limit child.depth with
      | error fault => rfl
      | ok depth =>
          simp only [Guarded.unbreached_ok, ok_bind]
          rw [overwrite_append, Focus.fill_eq]
          rfl

/-- A step in place is the step of the phase that reduces this operator. -/
theorem step?_eq
    (fits : Fits greatest row)
    (operator : Operator) :
    step? greatest limit row operator =
      ((Phase.ofOperator operator).step? limit row).map .unbreached := by
  cases operator with
  | binary op =>
      rw [step?, Phase.ofOperator, Phase.step?]
      cases selected : Focus.first? (Slot.binaryOp? [op]) row with
      | none =>
          have unselected := Focus.first?_eq_none_iff.mp selected
          simp only [Slot.binaryOp?_eq_none_iff_holds] at unselected
          rw [List.findIdx?_eq_none_iff.mpr unselected]
          rfl
      | some focus =>
          obtain ⟨slot, slotSelected, rfl, leftmost⟩ :=
            Focus.first?_eq_some_iff.mp selected
          obtain ⟨member, mark, rfl, isOperator⟩ :=
            Slot.binaryOp?_eq_some_iff.mp slotSelected
          obtain rfl := List.mem_singleton.mp member
          simp only [Slot.binaryOp?_eq_none_iff_holds] at leftmost
          have index_eq :
              (Focus.fill focus.before (.token mark) focus.after).findIdx?
                  (Slot.holds (.operator (.binary focus.found))) =
                some focus.before.length := by
            rw [Focus.fill_eq, findIdx?_append (Slot.holds_token isOperator),
              List.length_reverse]
            simpa using leftmost
          rw [index_eq, Option.map_some, Option.map_some, Option.map_some,
            reduceBinary_eq fits]
  | not =>
      rw [step?, Phase.ofOperator, Phase.step?]
      cases selected : Focus.last? Slot.negation? row with
      | none =>
          have unselected := Focus.last?_eq_none_iff.mp selected
          simp only [Slot.negation?_eq_none_iff_holds] at unselected
          have noNegation : ∀ slot ∈ row.reverse, slot.holds .not = false := by
            simpa using unselected
          rw [lastIndex?, List.findIdx?_eq_none_iff.mpr noNegation]
          rfl
      | some focus =>
          obtain ⟨slot, slotSelected, rfl, rightmost⟩ :=
            Focus.last?_eq_some_iff.mp selected
          obtain ⟨rfl, isNot⟩ := Slot.negation?_eq_some_iff.mp slotSelected
          simp only [Slot.negation?_eq_none_iff_holds] at rightmost
          have index_eq :
              lastIndex? .not
                  (Focus.fill focus.before (.token focus.found) focus.after) =
                some focus.before.length := by
            rw [Focus.fill_eq,
              lastIndex?_append (Slot.holds_token isNot) rightmost,
              List.length_reverse]
          rw [index_eq, Option.map_some, Option.map_some, Option.map_some,
            reduceNegation_eq fits]

theorem Fits.steps
    {phase : Phase}
    {next : Row}
    (fits : Fits greatest row)
    (steps : phase.Steps limit row next) :
    Fits greatest next := by
  have stepped := Phase.step?_eq_some_ok_iff.mpr steps
  constructor
  · have length_le := fits.length_le
    cases steps with
    | binary =>
        simp only [List.length_append, List.length_cons] at length_le ⊢
        omega
    | negation =>
        simp only [List.length_append, List.length_cons] at length_le ⊢
        omega
  · rcases phase.hasThreshold_step? fits.room with
      ended | ⟨run, isStep, threshold⟩
    · rw [ended] at stepped
      cases stepped
    · rw [isStep, Option.some.injEq] at stepped
      exact threshold.holds_of_ok stepped

theorem Fits.exhaust
    {phase : Phase}
    {final : Row}
    (fits : Fits greatest row)
    (exhausted : phase.exhaust limit row = .ok final) :
    Fits greatest final :=
  (Phase.exhaust_outcome (fun _ _ holds steps => holds.steps steps) row
    fits).1 final exhausted

theorem exhaust_eq
    (fits : Fits greatest row)
    (operator : Operator) :
    exhaust greatest limit row operator =
      .unbreached ((Phase.ofOperator operator).exhaust limit row) := by
  -- On the tokens that are left, as every step uses one up.
  induction count_eq : row.tokenCount using Nat.strongRecOn
      generalizing row with
  | ind count hypothesis =>
      subst count_eq
      have same : step? greatest limit row operator = _ :=
        step?_eq fits operator
      cases stepped : (Phase.ofOperator operator).step? limit row with
      | none =>
          rw [stepped, Option.map_none] at same
          rw [exhaust_of_step?_eq_none same,
            Phase.exhaust_of_step?_eq_none stepped, Guarded.unbreached_ok]
      | some outcome =>
          rw [stepped, Option.map_some] at same
          rw [exhaust_of_step?_eq_some same,
            Phase.exhaust_of_step?_eq_some stepped, Guarded.unbreached_bind]
          cases outcome with
          | error fault => rfl
          | ok next =>
              exact hypothesis _ (Phase.tokenCount_of_step? stepped)
                (fits.steps (Phase.step?_eq_some_ok_iff.mp stepped)) rfl

theorem exhaustAll_eq
    (fits : Fits greatest row)
    (operators : List Operator) :
    operators.foldlM (exhaust greatest limit) row =
      .unbreached (row.exhaustAll limit (operators.map Phase.ofOperator)) := by
  induction operators generalizing row with
  | nil => rfl
  | cons operator operators hypothesis =>
      rw [List.foldlM_cons, exhaust_eq fits, Row.exhaustAll, List.map_cons,
        List.foldlM_cons, Guarded.unbreached_bind]
      cases exhausted : (Phase.ofOperator operator).exhaust limit row with
      | error fault => rfl
      | ok next => exact hypothesis (fits.exhaust exhausted)

theorem map_operators : operators.map Phase.ofOperator = Phase.standard := rfl

theorem Fits.map_toLeaf (fits : Fits greatest row) :
    Fits greatest (row.map Slot.toLeaf) where
  length_le := by
    rw [List.length_map]
    exact fits.length_le
  room := fits.room.map_toLeaf

theorem assemble_eq (fits : Fits greatest row) :
    assemble greatest limit row =
      .unbreached (row.assemble Phase.standard limit) := by
  rw [assemble, exhaustAll_eq fits.map_toLeaf, map_operators, Row.assemble,
    Guarded.unbreached_bind]
  rfl

/-! ## Groups -/

/-- The closing parenthesis of a group stands behind its contents. -/
theorem closingIndex?_eq
    {nesting index : Nat}
    (nestingCounts : nesting + row.length ≤ greatest)
    (indexCounts : index + row.length ≤ greatest) :
    closingIndex? greatest nesting index row =
      .ok ((Row.divideAtClose? nesting row).map
        fun (contents, _) => index + contents.length) := by
  induction row generalizing nesting index with
  | nil => rfl
  | cons slot row hypothesis =>
      rw [List.length_cons] at nestingCounts indexCounts
      have later
          {inner : Nat}
          (innerCounts : inner + row.length ≤ greatest) :
          closingIndex? greatest inner (index + 1) row =
            .ok (((Row.divideAtClose? inner row).map
                fun (contents, after) => (slot :: contents, after)).map
              fun (contents, _) => index + contents.length) := by
        rw [hypothesis innerCounts (by omega), Option.map_map]
        congr 2
        funext parts
        simp only [Function.comp_apply, List.length_cons]
        omega
      have closes : slot.isCloseParen = slot.holds .closeParen := rfl
      rw [closingIndex?, Row.divideAtClose?_cons, Slot.isSome_openParen?,
        closes, Guarded.increment_of_lt (by omega), ok_bind]
      split
      · rw [Guarded.increment_of_lt (by omega), ok_bind]
        exact later (by omega)
      · split
        · cases nesting with
          | zero => rfl
          | succ outer =>
              rw [if_neg (Nat.succ_ne_zero outer)]
              exact later (by omega)
        · exact later (by omega)

theorem cutOut_append
    {opening closing : Slot}
    {contents : Row} :
    cutOut front.length (front.length + 1 + contents.length)
        (front ++ opening :: (contents ++ closing :: back)) =
      .ok ⟨front.length, contents, front ++ back⟩ := by
  have parts :
      front ++ opening :: (contents ++ closing :: back) =
        front ++ (opening :: contents ++ [closing]) ++ back := by
    simp
  have isLast :
      front.length + 1 + contents.length + 1 =
        front.length + (opening :: contents ++ [closing]).length := by
    simp only [List.length_append, List.length_cons, List.length_nil]
    omega
  rw [cutOut, parts, drain_append (by simp) isLast, ok_bind]
  simp only [pop_append, ok_bind]
  rfl

theorem takeGroupAt_append
    {capacity : Capacity}
    {opening : Token}
    (length_le :
      (front ++ .token opening :: back).length ≤ capacity.count)
    (starts : opening.span.start < capacity.position) :
    takeGroupAt capacity front.length (front ++ .token opening :: back) =
      if back.isEmpty then
        .error (.fault (.danglingOpen opening.position))
      else
        match Row.divideAtClose? 0 back with
        | none => .error (.fault (.unmatchedOpen opening.position))
        | some (contents, behind) =>
            if contents.isEmpty then
              .error (.fault (.emptyGroup opening.position))
            else
              .ok ⟨front.length, contents, front ++ behind⟩ := by
  have position_eq :
      position capacity (.token opening) = .ok opening.position :=
    Guarded.increment_of_lt starts
  have inside_eq :
      (front ++ Slot.token opening :: back).drop (front.length + 1) = back := by
    simp [List.drop_append]
  rw [takeGroupAt, slotAt_append, ok_bind, position_eq, ok_bind]
  simp only [List.length_append, List.length_cons] at length_le ⊢
  rw [Guarded.increment_of_lt (by omega), ok_bind, inside_eq]
  cases back with
  | nil => simp
  | cons next others =>
      rw [if_neg (by simp), closingIndex?_eq (by omega) (by omega), ok_bind]
      simp only [List.isEmpty_cons, Bool.false_eq_true, if_false]
      cases divided : Row.divideAtClose? 0 (next :: others) with
      | none => rfl
      | some parts =>
          obtain ⟨contents, behind⟩ := parts
          obtain ⟨closing, -, parts_eq⟩ := Row.append_of_divideAtClose? divided
          simp only [Option.map_some, parts_eq, cutOut_append]
          cases contents with
          | nil => simp
          | cons first contents => simp

/-- What is taken out of a row with a group. -/
def TakenGroup.ofGroup (group : Group) : TakenGroup :=
  ⟨group.before.length, group.contents, group.before.reverse ++ group.after⟩

theorem takeGroup_eq
    {capacity : Capacity}
    (length_le : row.length ≤ capacity.count)
    (starts : ∀ found ∈ row.tokens, found.span.start < capacity.position) :
    takeGroup capacity row =
      .unbreached (row.firstGroup?.map (Option.map .ofGroup)) := by
  unfold takeGroup Row.firstGroup?
  cases selected : Focus.first? Slot.openParen? row with
  | none =>
      have unselected := Focus.first?_eq_none_iff.mp selected
      simp only [Slot.openParen?_eq_none_iff_holds] at unselected
      rw [List.findIdx?_eq_none_iff.mpr unselected]
      rfl
  | some focus =>
      obtain ⟨before, opening, after⟩ := focus
      obtain ⟨slot, slotSelected, rfl, leftmost⟩ :=
        Focus.first?_eq_some_iff.mp selected
      obtain ⟨rfl, isOpening⟩ := Slot.openParen?_eq_some_iff.mp slotSelected
      simp only [Slot.openParen?_eq_none_iff_holds] at leftmost
      simp only [Focus.fill_eq] at length_le starts ⊢
      rw [findIdx?_append (Slot.holds_token isOpening)
        (by simpa using leftmost)]
      simp only [takeGroupAt_append length_le (starts opening (by simp))]
      cases after.isEmpty with
      | true => rfl
      | false =>
          cases Row.divideAtClose? 0 after with
          | none => rfl
          | some parts =>
              obtain ⟨contents, behind⟩ := parts
              cases contents with
              | nil => rfl
              | cons first contents =>
                  rw [List.length_reverse]
                  rfl

theorem insert_fill
    (group : Group)
    (subtree : Subtree) :
    insert (TakenGroup.ofGroup group).index (.group subtree)
        (TakenGroup.ofGroup group).rest =
      .ok (group.fill subtree) := by
  rw [Group.fill, Focus.fill_eq]
  simp only [TakenGroup.ofGroup]
  rw [← List.length_reverse, insert_append]

theorem Fits.contents
    {group : Group}
    (fits : Fits greatest row)
    (found : row.firstGroup? = .ok (some group)) :
    Fits greatest group.contents := by
  obtain ⟨-, shorter⟩ := Row.contents_shorter found
  refine ⟨Nat.le_trans (Nat.le_of_lt shorter) fits.length_le, ?_⟩
  intro slot member
  exact Nat.le_trans (fits.room.contents found slot member) (Nat.sub_le _ _)

/-- The tokens between the parentheses bound the depth of the subexpression that
they are reduced to. -/
theorem Fits.fill
    {group : Group}
    {subtree : Subtree}
    {schedule : List Phase}
    {level : Nat}
    (fits : Fits greatest row)
    (found : row.firstGroup? = .ok (some group))
    (reduced : group.contents.reduce schedule limit level = .ok subtree) :
    Fits greatest (group.fill subtree) := by
  have threshold :=
    Row.hasThreshold_reduce schedule level (fits.room.contents found)
  refine ⟨?_, fits.room.fill found (threshold.holds_of_ok reduced)⟩
  have length_le := fits.length_le
  obtain ⟨opening, closing, -, -, row_eq, -⟩ :=
    Row.firstGroup?_eq_some_iff.mp found
  rw [row_eq, Focus.fill_eq] at length_le
  rw [Group.fill, Focus.fill_eq]
  simp only [List.length_append, List.length_cons] at length_le ⊢
  omega

/-! ## Rows -/

/-- A row with so many groups around it can be reduced within a capacity. -/
structure Within
    (capacity : Capacity)
    (level : Nat)
    (row : Row) : Prop where
  /-- The row can be counted. -/
  fits : Fits capacity.count row
  /-- The groups can be counted, even if every token opened one more. -/
  level_le : level + row.tokenCount ≤ capacity.count
  /-- The positions of the tokens can be counted. -/
  starts : ∀ found ∈ row.tokens, found.span.start < capacity.position

section

variable {capacity : Capacity} {level : Nat} {group : Group} {subtree : Subtree}

theorem Within.contents
    (within : Within capacity level row)
    (found : row.firstGroup? = .ok (some group)) :
    Within capacity (level + 1) group.contents := by
  have counts := Row.tokenCount_of_firstGroup? found
  have level_le := within.level_le
  refine ⟨within.fits.contents found, by omega, ?_⟩
  obtain ⟨part, -⟩ := Row.contents_shorter found
  intro token member
  exact within.starts token ((part.filterMap _).subset member)

theorem Within.fill
    (within : Within capacity level row)
    (found : row.firstGroup? = .ok (some group))
    (reduced : group.contents.reduce Phase.standard limit (level + 1) =
      .ok subtree) :
    Within capacity level (group.fill subtree) := by
  have fewer := Row.tokenCount_fill_group found subtree
  have level_le := within.level_le
  refine ⟨within.fits.fill found reduced, by omega, ?_⟩
  obtain ⟨part, -⟩ := Row.usesUp_fill found subtree
  intro token member
  exact within.starts token (part.subset member)

theorem within_ofTokens
    {tokens : List Token}
    (length_le : tokens.length ≤ capacity.count)
    (starts : ∀ token ∈ tokens, token.span.start < capacity.position) :
    Within capacity 0 (Row.ofTokens tokens) := by
  have count_eq := Row.tokenCount_ofTokens tokens
  refine ⟨⟨?_, ?_⟩, by omega, ?_⟩
  · rw [Row.ofTokens, List.length_map]
    exact length_le
  · intro slot member
    exact Nat.le_trans (Row.room_ofTokens tokens slot member) length_le
  · intro token member
    obtain ⟨slot, slotMember, holds⟩ := List.mem_filterMap.mp member
    obtain ⟨other, otherMember, rfl⟩ := List.mem_map.mp slotMember
    obtain rfl := Option.mem_some.mp holds
    exact starts _ otherMember

theorem mapError_unbreached
    (outcome : Except ParseError Subtree) :
    (Guarded.unbreached outcome).mapError outsideGroup =
      Guarded.unbreached (outcome.mapError ParseError.outsideGroup) := by
  cases outcome with
  | error error => rfl
  | ok value => rfl

/-- Within its capacity, a reduction in place comes to what the reduction comes
to. -/
theorem reduce_eq (within : Within capacity level row) :
    reduce capacity limit level row =
      .unbreached (row.reduce Phase.standard limit level) := by
  -- Both the contents of a group and the row with the group put in again have
  -- fewer tokens than the row.
  induction count_eq : row.tokenCount using Nat.strongRecOn
      generalizing row level with
  | ind count hypothesis =>
      subst count_eq
      have taken := takeGroup_eq within.fits.length_le within.starts
      cases found : row.firstGroup? with
      | error fault =>
          rw [found] at taken
          rw [reduce_of_takeGroup_error taken,
            Row.reduce_of_firstGroup?_error found]
          split <;> rfl
      | ok group? =>
          cases group? with
          | none =>
              rw [found] at taken
              rw [reduce_of_takeGroup_none taken,
                Row.reduce_of_firstGroup?_none found, assemble_eq within.fits]
              split <;> rfl
          | some group =>
              rw [found] at taken
              have counts := Row.tokenCount_of_firstGroup? found
              have level_le := within.level_le
              have inside :
                  reduce capacity limit (level + 1)
                      (TakenGroup.ofGroup group).contents =
                    .unbreached (group.contents.reduce Phase.standard limit
                      (level + 1)) :=
                hypothesis _ (Row.tokenCount_contents found)
                  (within.contents found) rfl
              rw [reduce_of_takeGroup_some taken,
                Row.reduce_of_firstGroup?_some found,
                Guarded.increment_of_lt (by omega), ok_bind, inside,
                mapError_unbreached]
              split
              · rfl
              · rw [Guarded.unbreached_bind]
                cases reduced :
                    group.contents.reduce Phase.standard limit (level + 1) with
                | error fault => rfl
                | ok subtree =>
                    have filled := hypothesis _
                      (Row.tokenCount_fill_group found subtree)
                      (within.fill found reduced) rfl
                    change insert _ _ _ >>= _ = _
                    rw [insert_fill, ok_bind, filled]
                    rfl

theorem parse_eq
    {maxDepth : Nat}
    {tokens : List Token}
    (length_le : tokens.length ≤ capacity.count)
    (starts : ∀ token ∈ tokens, token.span.start < capacity.position) :
    parse capacity maxDepth tokens =
      .unbreached (FilterLang.parse maxDepth tokens) := by
  rw [parse, reduce_eq (within_ofTokens length_le starts), FilterLang.parse,
    parseBy, Guarded.unbreached_bind]
  rfl

/-- The indices of three tokens cannot be counted up to two only. -/
example :
    parse ⟨2, 9⟩ 3
        [⟨.openParen, "(", ⟨0, 1⟩⟩, ⟨.identifier, "a", ⟨1, 2⟩⟩,
          ⟨.closeParen, ")", ⟨2, 3⟩⟩] =
      .error (.breach .overflow) := by
  cbv

end

end InPlace

/-- Nothing that is guarded ever stops the parser or the reader. In place, every
slot that is looked up, taken out, put in or overwritten is in the row, and what
a node overwrites is the operator that was found. Nothing is counted down from
zero. No index, number of groups or depth becomes greater than the number of
tokens, however deep expressions may be, so whatever can count the tokens, such
as a word of 64 bits, counts them all, and the positions too. The reader has
neither more calls open nor a greater depth than one more than the characters of
its text, and behind every expression its counter is what it was before it. -/
theorem bounds_are_kept
    (maxDepth : Nat)
    (tokens : List Token)
    (text : String)
    (starts : ∀ token ∈ tokens, token.span.start < UInt64.size - 1) :
    (∀ greatest, tokens.length ≤ greatest →
      InPlace.parse ⟨greatest, UInt64.size - 1⟩ maxDepth tokens =
        .unbreached (parse maxDepth tokens)) ∧
    (∀ greatest, text.length + 1 ≤ greatest →
      Canonical.Counted.read greatest maxDepth text =
        .unbreached (Canonical.read maxDepth text)) ∧
    ∀ (greatest calls counter reached : Nat) (place after : Canonical.Place)
      (tree : Expr),
      Canonical.Counted.readTree greatest maxDepth calls counter place =
          .ok (tree, after, reached) →
        reached = counter := by
  refine ⟨?_, ?_, ?_⟩
  · intro greatest counted
    exact InPlace.parse_eq counted starts
  · intro greatest counted
    exact Canonical.Counted.read_eq counted
  · intro greatest calls counter reached place after tree read
    exact Canonical.Counted.counter_of_readTree read

/-- The tokens of `not (a = b)`, as far behind as they may be. -/
def negatedGroup : List Token :=
  [⟨.operator .not, "not", ⟨UInt64.size - 13, UInt64.size - 10⟩⟩,
    ⟨.openParen, "(", ⟨UInt64.size - 9, UInt64.size - 8⟩⟩,
    ⟨.identifier, "a", ⟨UInt64.size - 8, UInt64.size - 7⟩⟩,
    ⟨.comparison .equal, "=", ⟨UInt64.size - 6, UInt64.size - 5⟩⟩,
    ⟨.identifier, "b", ⟨UInt64.size - 4, UInt64.size - 3⟩⟩,
    ⟨.closeParen, ")", ⟨UInt64.size - 2, UInt64.size - 1⟩⟩]

theorem bounds_are_kept_in_negatedGroup :
    (∀ token ∈ negatedGroup, token.span.start < UInt64.size - 1) ∧
      InPlace.parse ⟨6, UInt64.size - 1⟩ (UInt64.size - 1) negatedGroup =
        .ok (.not (.binary (.comparison .equal)
          (.identifier "a") (.identifier "b"))) ∧
      Canonical.Counted.read 25 (UInt64.size - 1)
          "NOT\x7bEQ\x7bID\x7b\"a\"\x7d,ID\x7b\"b\"\x7d\x7d\x7d" =
        .ok (.not (.binary (.comparison .equal)
          (.identifier "a") (.identifier "b"))) := by
  have starts : ∀ token ∈ negatedGroup, token.span.start < UInt64.size - 1 := by
    decide
  have parsed :
      parse (UInt64.size - 1) negatedGroup =
        .ok (.not (.binary (.comparison .equal)
          (.identifier "a") (.identifier "b"))) := by
    cbv
  have read :
      Canonical.read (UInt64.size - 1)
          "NOT\x7bEQ\x7bID\x7b\"a\"\x7d,ID\x7b\"b\"\x7d\x7d\x7d" =
        .ok (.not (.binary (.comparison .equal)
          (.identifier "a") (.identifier "b"))) := by
    decide +kernel
  obtain ⟨parseKept, readKept, -⟩ := bounds_are_kept (UInt64.size - 1)
    negatedGroup "NOT\x7bEQ\x7bID\x7b\"a\"\x7d,ID\x7b\"b\"\x7d\x7d\x7d" starts
  refine ⟨starts, ?_, ?_⟩
  · rw [parseKept 6 (by decide), parsed, Guarded.unbreached_ok]
  · rw [readKept 25 (by decide), read, Guarded.unbreached_ok]

end FilterLang
