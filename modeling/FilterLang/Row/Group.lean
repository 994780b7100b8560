import FilterLang.Row.Basic
import FilterLang.Row.Focus

/-!
# Groups

A group is the part of a row between an opening parenthesis and the closing one
that matches it. Groups are reduced before any operator. Both the contents of a
group and the row with a subexpression in the group's place have fewer tokens
than the row had, so nothing else is needed to bound the reduction of groups
within groups.
-/

namespace FilterLang

/-- A group and the slots around it. -/
structure Group where
  /-- The slots before the opening parenthesis, nearest first. -/
  before : Row
  /-- The slots between the parentheses, left to right. -/
  contents : Row
  /-- The slots behind the closing parenthesis, left to right. -/
  after : Row

namespace Group

/-- The row with a subexpression in the group's place. -/
def fill
    (group : Group)
    (subtree : Subtree) : Row :=
  Focus.fill group.before (.group subtree) group.after

end Group

namespace Row

/-- Divide a row at the parenthesis that closes a group, when `inner` groups
have been opened inside it and not been closed. -/
def divideAtClose? (inner : Nat) : Row → Option (Row × Row)
  | [] => none
  | slot :: row =>
      if slot.openParen?.isSome then
        (divideAtClose? (inner + 1) row).map fun (contents, after) =>
          (slot :: contents, after)
      else if slot.isCloseParen then
        match inner with
        | 0 => some ([], row)
        | outer + 1 =>
            (divideAtClose? outer row).map fun (contents, after) =>
              (slot :: contents, after)
      else
        (divideAtClose? inner row).map fun (contents, after) =>
          (slot :: contents, after)

/-- The first group of a row, if the row has an opening parenthesis. -/
def firstGroup? (row : Row) : Except ParseError (Option Group) :=
  match Focus.first? Slot.openParen? row with
  | none => .ok none
  | some ⟨before, opening, after⟩ =>
      if after.isEmpty then
        .error (.danglingOpen opening.position)
      else
        match divideAtClose? 0 after with
        | none => .error (.unmatchedOpen opening.position)
        | some (contents, behind) =>
            if contents.isEmpty then
              .error (.emptyGroup opening.position)
            else
              .ok (some ⟨before, contents, behind⟩)

theorem divideAtClose?_cons
    (inner : Nat)
    (slot : Slot)
    (row : Row) :
    divideAtClose? inner (slot :: row) =
      if slot.openParen?.isSome then
        (divideAtClose? (inner + 1) row).map fun (contents, after) =>
          (slot :: contents, after)
      else if slot.isCloseParen then
        match inner with
        | 0 => some ([], row)
        | outer + 1 =>
            (divideAtClose? outer row).map fun (contents, after) =>
              (slot :: contents, after)
      else
        (divideAtClose? inner row).map fun (contents, after) =>
          (slot :: contents, after) := by
  cases inner <;> rfl

/-- A row is divided at a closing parenthesis. -/
theorem append_of_divideAtClose?
    {inner : Nat}
    {row contents after : Row}
    (divided : divideAtClose? inner row = some (contents, after)) :
    ∃ closing, closing.kind = .closeParen ∧
      row = contents ++ .token closing :: after := by
  induction row generalizing inner contents after with
  | nil => simp [divideAtClose?] at divided
  | cons slot row hypothesis =>
      have grow
          {rest : Nat}
          (mapped : (divideAtClose? rest row).map
              (fun parts => (slot :: parts.1, parts.2)) =
                some (contents, after)) :
          ∃ closing, closing.kind = .closeParen ∧
            slot :: row = contents ++ .token closing :: after := by
        obtain ⟨⟨inside, behind⟩, innerDivided, equal⟩ :=
          Option.map_eq_some_iff.mp mapped
        simp only [Prod.mk.injEq] at equal
        obtain ⟨rfl, rfl⟩ := equal
        obtain ⟨closing, isClosing, rfl⟩ := hypothesis innerDivided
        exact ⟨closing, isClosing, rfl⟩
      simp only [divideAtClose?] at divided
      split at divided
      · exact grow divided
      · split at divided
        · rename_i isClose
          obtain ⟨closing, rfl, isClosing⟩ := Slot.isCloseParen_iff.mp isClose
          split at divided
          · simp only [Option.some.injEq, Prod.mk.injEq] at divided
            obtain ⟨rfl, rfl⟩ := divided
            exact ⟨closing, isClosing, rfl⟩
          · exact grow divided
        · exact grow divided

theorem firstGroup?_eq_none_iff
    {row : Row} :
    row.firstGroup? = .ok none ↔ ∀ slot ∈ row, slot.openParen? = none := by
  rw [← Focus.first?_eq_none_iff]
  unfold firstGroup?
  split
  · rename_i unselected
    simp [unselected]
  · rename_i before opening after selected
    simp only [selected, reduceCtorEq, iff_false]
    split
    · simp
    · split
      · simp
      · split <;> simp

/-- The first group of a row starts at the first opening parenthesis and is not
empty. -/
theorem firstGroup?_eq_some_iff
    {row : Row}
    {group : Group} :
    row.firstGroup? = .ok (some group) ↔
      ∃ opening closing : Token,
        opening.kind = .openParen ∧
        closing.kind = .closeParen ∧
        row = Focus.fill group.before (.token opening)
          (group.contents ++ .token closing :: group.after) ∧
        (∀ slot ∈ group.before, slot.openParen? = none) ∧
        divideAtClose? 0 (group.contents ++ .token closing :: group.after) =
          some (group.contents, group.after) ∧
        group.contents ≠ [] := by
  constructor
  · intro found
    unfold firstGroup? at found
    split at found
    · simp at found
    · rename_i before opening after selected
      obtain ⟨slot, slotSelected, rfl, unselected⟩ :=
        Focus.first?_eq_some_iff.mp selected
      obtain ⟨rfl, isOpening⟩ := Slot.openParen?_eq_some_iff.mp slotSelected
      split at found
      · simp at found
      · split at found
        · simp at found
        · rename_i contents behind divided
          split at found
          · simp at found
          · rename_i nonempty
            simp only [Except.ok.injEq, Option.some.injEq] at found
            subst found
            obtain ⟨closing, isClosing, rfl⟩ := append_of_divideAtClose? divided
            exact ⟨opening, closing, isOpening, isClosing, rfl, unselected,
              divided, by simpa using nonempty⟩
  · rintro ⟨opening, closing, isOpening, isClosing, rfl, unselected, divided,
      nonempty⟩
    have selected :
        Focus.first? Slot.openParen?
            (Focus.fill group.before (.token opening)
              (group.contents ++ .token closing :: group.after)) =
          some ⟨group.before, opening,
            group.contents ++ .token closing :: group.after⟩ := by
      apply Focus.first?_eq_some_iff.mpr
      exact ⟨.token opening, Slot.openParen?_eq_some_iff.mpr ⟨rfl, isOpening⟩,
        rfl, unselected⟩
    simp [firstGroup?, selected, divided, nonempty]

/-- A group and the slots around it leave out two tokens of the row. -/
theorem tokenCount_of_firstGroup?
    {row : Row}
    {group : Group}
    (found : row.firstGroup? = .ok (some group)) :
    group.before.tokenCount + group.contents.tokenCount +
      group.after.tokenCount + 2 = row.tokenCount := by
  obtain ⟨opening, closing, -, -, rfl, -⟩ := firstGroup?_eq_some_iff.mp found
  simp only [Focus.fill_eq, tokenCount_append, tokenCount_reverse,
    tokenCount_cons, Slot.tokenCount_token]
  omega

theorem tokenCount_contents
    {row : Row}
    {group : Group}
    (found : row.firstGroup? = .ok (some group)) :
    group.contents.tokenCount < row.tokenCount := by
  have bound := tokenCount_of_firstGroup? found
  omega

theorem tokenCount_fill_group
    {row : Row}
    {group : Group}
    (found : row.firstGroup? = .ok (some group))
    (subtree : Subtree) :
    (group.fill subtree).tokenCount < row.tokenCount := by
  have bound := tokenCount_of_firstGroup? found
  simp only [Group.fill, Focus.fill_eq, tokenCount_append, tokenCount_reverse,
    tokenCount_cons, Slot.tokenCount_group]
  omega

end Row
end FilterLang
