import FilterLang.Proofs.ParseGrammar

/-!
# Where a reduction of operators fails

A phase fails at one of its operators: the slots on one side of it hold no
operand for it, or the limit does not allow for another level. A schedule fails
where one of its phases does, on a row that has every property that the steps
of the phases preserve.
-/

namespace FilterLang

/-- The slots on one side of an operator, nearest first, hold no operand for
it. -/
inductive OperandFault
    (operator : Operator)
    (side : Side) : Row → ParseError → Prop
  | missing :
      OperandFault operator side [] (.missingOperand operator side)
  | unreduced
      {found : Token}
      {rest : Row} :
      OperandFault operator side (.token found :: rest)
        (.unreducedOperand operator side found)
  | compound
      {subtree : Subtree}
      {rest : Row}
      (isComparison : operator.isComparison)
      (notLeaf : subtree.tree.isLeaf = false) :
      OperandFault operator side (.node subtree :: rest)
        (.invalidOperand operator side)
  | group
      {subtree : Subtree}
      {rest : Row}
      (isComparison : operator.isComparison) :
      OperandFault operator side (.group subtree :: rest)
        (.invalidOperand operator side)

/-- Whether an error is met at a parenthesis or between parentheses. -/
def ParseError.isOfGroup : ParseError → Bool
  | danglingOpen _ => true
  | unmatchedOpen _ => true
  | emptyGroup _ => true
  | inGroup _ => true
  | _ => false

theorem OperandFault.isOfGroup_eq_false
    {operator : Operator}
    {side : Side}
    {row : Row}
    {fault : ParseError}
    (faulty : OperandFault operator side row fault) :
    fault.isOfGroup = false := by
  cases faulty <;> rfl

theorem operandFault_of_takeOperand
    {operator : Operator}
    {side : Side}
    {row : Row}
    {fault : ParseError}
    (failed : Row.takeOperand operator side row = .error fault) :
    OperandFault operator side row fault := by
  cases row with
  | nil =>
      cases failed
      exact .missing
  | cons slot rest =>
      have operandFailed : slot.operand operator side = .error fault := by
        cases taken : slot.operand operator side with
        | error other =>
            rw [Row.takeOperand, taken] at failed
            cases failed
            rfl
        | ok subtree =>
            rw [Row.takeOperand_eq_ok_iff.mpr ⟨slot, rfl, taken⟩] at failed
            cases failed
      cases slot with
      | token found =>
          cases operandFailed
          exact .unreduced
      | node subtree =>
          simp only [Slot.operand, Bool.and_eq_true,
            Bool.not_eq_true'] at operandFailed
          split at operandFailed
          · rename_i refused
            cases operandFailed
            exact .compound refused.1 refused.2
          · cases operandFailed
      | group subtree =>
          simp only [Slot.operand] at operandFailed
          split at operandFailed
          · rename_i isComparison
            cases operandFailed
            exact .group isComparison
          · cases operandFailed

/-- The slots on one side of a place, nearest first. -/
def Side.slots
    (front back : Row) : Side → Row
  | left => front.reverse
  | right => back

namespace Phase

/-- The operators that a phase reduces. -/
def operators : Phase → List Operator
  | binary ops => ops.map .binary
  | negation => [.not]

/-- What is wrong with a row on which a phase fails. A negation has no operand
on its left. -/
inductive Fails
    (limit : Nat)
    (phase : Phase) : Row → ParseError → Prop
  | operand
      {operator : Operator}
      {symbol : Token}
      {side : Side}
      {front back : Row}
      {fault : ParseError}
      (member : operator ∈ phase.operators)
      (isOperator : symbol.kind = .operator operator)
      (takesSide : side = .left → operator ≠ .not)
      (faulty : OperandFault operator side (side.slots front back) fault) :
      Fails limit phase (front ++ .token symbol :: back) fault
  | tooDeep
      {row : Row} :
      Fails limit phase row (.tooDeep limit)

theorem Fails.isOfGroup_eq_false
    {limit : Nat}
    {phase : Phase}
    {row : Row}
    {fault : ParseError}
    (fails : phase.Fails limit row fault) :
    fault.isOfGroup = false := by
  cases fails with
  | operand member isOperator takesSide faulty =>
      exact faulty.isOfGroup_eq_false
  | tooDeep => rfl

end Phase

namespace Row

theorem depthAbove_eq_error
    {limit depth : Nat}
    {fault : ParseError}
    (failed : depthAbove limit depth = .error fault) :
    fault = .tooDeep limit := by
  unfold depthAbove at failed
  split at failed
  · cases failed
  · cases failed
    rfl

theorem single_eq_error
    {row : Row}
    {fault : ParseError}
    (failed : row.single = .error fault) :
    fault = .notSingle := by
  unfold single at failed
  split at failed
  · cases failed
  · cases failed
  · cases failed
    rfl

/-- A binary operator fails for want of an operand, or at the limit. -/
theorem reduceBinary_eq_error
    {limit : Nat}
    {focus : Focus Slot BinaryOp}
    {fault : ParseError}
    (failed : reduceBinary limit focus = .error fault) :
    fault = .tooDeep limit ∨
      ∃ side, OperandFault (.binary focus.found) side
        (side.slots focus.before.reverse focus.after) fault := by
  simp only [reduceBinary, bind_eq_error_iff, pure, Except.pure, reduceCtorEq,
    and_false, exists_false, or_false] at failed
  rcases failed with rightFailed | ⟨right, -, leftFailed | ⟨left, -, deep⟩⟩
  · exact Or.inr ⟨.right, operandFault_of_takeOperand rightFailed⟩
  · refine Or.inr ⟨.left, ?_⟩
    rw [Side.slots, List.reverse_reverse]
    exact operandFault_of_takeOperand leftFailed
  · exact Or.inl (depthAbove_eq_error deep)

theorem reduceNegation_eq_error
    {limit : Nat}
    {focus : Focus Slot Token}
    {fault : ParseError}
    (failed : reduceNegation limit focus = .error fault) :
    fault = .tooDeep limit ∨
      OperandFault .not .right
        (Side.right.slots focus.before.reverse focus.after) fault := by
  simp only [reduceNegation, bind_eq_error_iff, pure, Except.pure,
    reduceCtorEq, and_false, exists_false, or_false] at failed
  rcases failed with rightFailed | ⟨child, -, deep⟩
  · exact Or.inr (operandFault_of_takeOperand rightFailed)
  · exact Or.inl (depthAbove_eq_error deep)

end Row

namespace Phase

variable {limit : Nat} {fault : ParseError}

/-- Everything that is wrong when a step fails. -/
theorem fails_of_step?
    {phase : Phase}
    {row : Row}
    (stepped : phase.step? limit row = some (.error fault)) :
    phase.Fails limit row fault := by
  cases phase with
  | binary ops =>
      obtain ⟨focus, selected, failed⟩ := Option.map_eq_some_iff.mp stepped
      obtain ⟨slot, slotSelected, rfl, -⟩ :=
        Focus.first?_eq_some_iff.mp selected
      obtain ⟨member, symbol, rfl, isOperator⟩ :=
        Slot.binaryOp?_eq_some_iff.mp slotSelected
      rw [Focus.fill_eq]
      rcases Row.reduceBinary_eq_error failed with rfl | ⟨side, faulty⟩
      · exact .tooDeep
      · exact .operand (List.mem_map_of_mem member) isOperator (by simp) faulty
  | negation =>
      obtain ⟨focus, selected, failed⟩ := Option.map_eq_some_iff.mp stepped
      obtain ⟨slot, slotSelected, rfl, -⟩ :=
        Focus.last?_eq_some_iff.mp selected
      obtain ⟨rfl, isNot⟩ := Slot.negation?_eq_some_iff.mp slotSelected
      rw [Focus.fill_eq]
      rcases Row.reduceNegation_eq_error failed with rfl | faulty
      · exact .tooDeep
      · exact .operand (List.mem_singleton_self _) isNot (by simp) faulty

/-- What every step of a phase preserves holds where the phase ends and where
it fails. -/
theorem exhaust_outcome
    {phase : Phase}
    {property : Row → Prop}
    (preserved : ∀ row next, property row → phase.Steps limit row next →
      property next)
    (row : Row)
    (holds : property row) :
    (∀ final, phase.exhaust limit row = .ok final → property final) ∧
      ∀ fault, phase.exhaust limit row = .error fault →
        ∃ stuck, property stuck ∧ phase.Fails limit stuck fault := by
  fun_induction exhaust limit row phase with
  | case1 row ended => simp [holds]
  | case2 row fault stepped =>
      refine ⟨by simp, ?_⟩
      rintro other ⟨⟩
      exact ⟨row, holds, fails_of_step? stepped⟩
  | case3 row next stepped hypothesis =>
      exact hypothesis
        (preserved row next holds (step?_eq_some_ok_iff.mp stepped))

end Phase

namespace Row

/-- What every step of a schedule preserves holds where the schedule ends and
where it fails. -/
theorem exhaustAll_outcome
    {limit : Nat}
    {schedule : List Phase}
    {property : Row → Prop}
    (preserved : ∀ phase ∈ schedule, ∀ row next, property row →
      phase.Steps limit row next → property next)
    {row : Row}
    (holds : property row) :
    (∀ final, exhaustAll limit schedule row = .ok final → property final) ∧
      ∀ fault, exhaustAll limit schedule row = .error fault →
        ∃ phase ∈ schedule, ∃ stuck, property stuck ∧
          phase.Fails limit stuck fault := by
  induction schedule generalizing row with
  | nil =>
      constructor
      · rintro final ⟨⟩
        exact holds
      · rintro fault ⟨⟩
  | cons phase schedule hypothesis =>
      obtain ⟨phasePreserved, laterPreserved⟩ :=
        List.forall_mem_cons.mp preserved
      obtain ⟨ended, failed⟩ := phase.exhaust_outcome phasePreserved row holds
      have later
          {middle : Row}
          (first : phase.exhaust limit row = .ok middle) :=
        hypothesis laterPreserved (ended middle first)
      constructor
      · intro final exhausted
        rw [exhaustAll, List.foldlM_cons, bind_eq_ok_iff] at exhausted
        obtain ⟨middle, first, rest⟩ := exhausted
        exact (later first).1 final rest
      · intro fault exhausted
        rw [exhaustAll, List.foldlM_cons, bind_eq_error_iff] at exhausted
        rcases exhausted with firstFailed | ⟨middle, first, rest⟩
        · obtain ⟨stuck, stuckHolds, fails⟩ := failed fault firstFailed
          exact ⟨phase, List.mem_cons_self, stuck, stuckHolds, fails⟩
        · obtain ⟨other, member, stuck, stuckHolds, fails⟩ :=
            (later first).2 fault rest
          exact ⟨other, List.mem_cons_of_mem _ member, stuck, stuckHolds,
            fails⟩

/-- The errors of a row without groups are met at an operator or at the end. -/
theorem assemble_eq_error
    {schedule : List Phase}
    {limit : Nat}
    {row : Row}
    {fault : ParseError}
    (failed : row.assemble schedule limit = .error fault) :
    fault.isOfGroup = false := by
  have preserved : ∀ phase ∈ schedule, ∀ row next, True →
      Phase.Steps limit phase row next → True := by
    simp
  rw [assemble, bind_eq_error_iff] at failed
  rcases failed with exhausted | ⟨final, -, several⟩
  · obtain ⟨phase, -, stuck, -, fails⟩ :=
      (exhaustAll_outcome preserved trivial).2 fault exhausted
    exact fails.isOfGroup_eq_false
  · rw [single_eq_error several]
    rfl

end Row

theorem parse_eq_error_iff
    {maxDepth : Nat}
    {tokens : List Token}
    {error : ParseError} :
    parse maxDepth tokens = .error error ↔
      (Row.ofTokens tokens).reduce Phase.standard maxDepth 0 =
        .error error := by
  simp [parse, parseBy, bind_eq_error_iff, pure, Except.pure]

end FilterLang
