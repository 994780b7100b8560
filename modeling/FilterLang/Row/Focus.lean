/-!
# An element of a list and its neighbours

A focus divides a list at one element. The elements before it are kept nearest
first, so that both neighbours stand at the head of a list.
-/

namespace FilterLang

/-- What was found at one place of a list, with the elements on either side. -/
structure Focus (α β : Type) where
  /-- The elements before the place, nearest first. -/
  before : List α
  /-- What was found at the place. -/
  found : β
  /-- The elements after the place, nearest first. -/
  after : List α

namespace Focus

/-- A list made of the elements before a place, nearest first, an element for
the place, and the elements after it. -/
def fill
    {α : Type}
    (before : List α)
    (element : α)
    (after : List α) : List α :=
  before.reverseAux (element :: after)

theorem fill_eq
    {α : Type}
    (before : List α)
    (element : α)
    (after : List α) :
    fill before element after = before.reverse ++ element :: after :=
  List.reverseAux_eq

/-- The first element that is selected, behind elements that are not. -/
def firstBehind?
    {α β : Type}
    (select : α → Option β)
    (before : List α) : List α → Option (Focus α β)
  | [] => none
  | element :: after =>
      match select element with
      | some found => some ⟨before, found, after⟩
      | none => firstBehind? select (element :: before) after

/-- The first element of a list that is selected. -/
def first?
    {α β : Type}
    (select : α → Option β)
    (elements : List α) : Option (Focus α β) :=
  firstBehind? select [] elements

/-- The same place seen from the other end of the list. -/
def swap
    {α β : Type}
    (focus : Focus α β) : Focus α β :=
  ⟨focus.after, focus.found, focus.before⟩

/-- The last element of a list that is selected. -/
def last?
    {α β : Type}
    (select : α → Option β)
    (elements : List α) : Option (Focus α β) :=
  (first? select elements.reverse).map swap

theorem firstBehind?_eq_some_iff
    {α β : Type}
    {select : α → Option β}
    {before elements : List α}
    {focus : Focus α β} :
    firstBehind? select before elements = some focus ↔
      ∃ element front, select element = some focus.found ∧
        elements = front ++ element :: focus.after ∧
        focus.before = front.reverse ++ before ∧
        ∀ other ∈ front, select other = none := by
  induction elements generalizing before with
  | nil => simp [firstBehind?]
  | cons element elements hypothesis =>
      cases elementSelected : select element with
      | some found =>
          simp only [firstBehind?, elementSelected, Option.some.injEq]
          constructor
          · rintro rfl
            exact ⟨element, [], elementSelected, rfl, rfl, by simp⟩
          · rintro ⟨chosen, front, chosenSelected, elements_eq, before_eq,
              unselected⟩
            cases front with
            | nil =>
                simp only [List.nil_append, List.cons.injEq] at elements_eq
                obtain ⟨rfl, rfl⟩ := elements_eq
                rw [elementSelected, Option.some.injEq] at chosenSelected
                obtain ⟨focusBefore, focusFound, focusAfter⟩ := focus
                simp_all
            | cons head front =>
                simp only [List.cons_append, List.cons.injEq] at elements_eq
                obtain ⟨rfl, -⟩ := elements_eq
                have headUnselected := unselected element (by simp)
                simp [elementSelected] at headUnselected
      | none =>
          simp only [firstBehind?, elementSelected, hypothesis]
          constructor
          · rintro ⟨chosen, front, chosenSelected, rfl, before_eq,
              unselected⟩
            refine ⟨chosen, element :: front, chosenSelected, rfl, ?_, ?_⟩
            · simpa using before_eq
            · simpa [elementSelected] using unselected
          · rintro ⟨chosen, front, chosenSelected, elements_eq, before_eq,
              unselected⟩
            cases front with
            | nil =>
                simp only [List.nil_append, List.cons.injEq] at elements_eq
                rw [← elements_eq.1, elementSelected] at chosenSelected
                simp at chosenSelected
            | cons head front =>
                simp only [List.cons_append, List.cons.injEq] at elements_eq
                obtain ⟨rfl, rfl⟩ := elements_eq
                refine ⟨chosen, front, chosenSelected, rfl, ?_, ?_⟩
                · simpa using before_eq
                · intro other member
                  exact unselected other (List.mem_cons_of_mem _ member)

/-- The first selected element stands behind elements that are not selected. -/
theorem first?_eq_some_iff
    {α β : Type}
    {select : α → Option β}
    {elements : List α}
    {focus : Focus α β} :
    first? select elements = some focus ↔
      ∃ element, select element = some focus.found ∧
        elements = fill focus.before element focus.after ∧
        ∀ other ∈ focus.before, select other = none := by
  rw [first?, firstBehind?_eq_some_iff]
  simp only [fill_eq, List.append_nil]
  constructor
  · rintro ⟨element, front, elementSelected, rfl, before_eq, unselected⟩
    refine ⟨element, elementSelected, ?_, ?_⟩
    · rw [before_eq, List.reverse_reverse]
    · simpa [before_eq] using unselected
  · rintro ⟨element, elementSelected, rfl, unselected⟩
    refine ⟨element, focus.before.reverse, elementSelected, rfl, ?_, ?_⟩
    · rw [List.reverse_reverse]
    · simpa using unselected

theorem fill_swap
    {α β : Type}
    (focus : Focus α β)
    (element : α) :
    fill focus.swap.before element focus.swap.after =
      (fill focus.before element focus.after).reverse := by
  simp [fill_eq, swap]

/-- The last selected element stands before elements that are not selected. -/
theorem last?_eq_some_iff
    {α β : Type}
    {select : α → Option β}
    {elements : List α}
    {focus : Focus α β} :
    last? select elements = some focus ↔
      ∃ element, select element = some focus.found ∧
        elements = fill focus.before element focus.after ∧
        ∀ other ∈ focus.after, select other = none := by
  have mirror :
      last? select elements = some focus ↔
        first? select elements.reverse = some focus.swap := by
    rw [last?, Option.map_eq_some_iff]
    constructor
    · rintro ⟨mirrored, mirroredSelected, rfl⟩
      exact mirroredSelected
    · intro mirroredSelected
      exact ⟨focus.swap, mirroredSelected, rfl⟩
  rw [mirror, first?_eq_some_iff]
  simp only [fill_swap, List.reverse_inj]
  rfl

theorem firstBehind?_eq_none_iff
    {α β : Type}
    {select : α → Option β}
    {before elements : List α} :
    firstBehind? select before elements = none ↔
      ∀ element ∈ elements, select element = none := by
  induction elements generalizing before with
  | nil => simp [firstBehind?]
  | cons element elements hypothesis =>
      cases elementSelected : select element with
      | none => simp [firstBehind?, elementSelected, hypothesis]
      | some found => simp [firstBehind?, elementSelected]

theorem first?_eq_none_iff
    {α β : Type}
    {select : α → Option β}
    {elements : List α} :
    first? select elements = none ↔
      ∀ element ∈ elements, select element = none :=
  firstBehind?_eq_none_iff

theorem last?_eq_none_iff
    {α β : Type}
    {select : α → Option β}
    {elements : List α} :
    last? select elements = none ↔
      ∀ element ∈ elements, select element = none := by
  rw [last?, Option.map_eq_none_iff, first?_eq_none_iff]
  simp only [List.mem_reverse]

end Focus
end FilterLang
