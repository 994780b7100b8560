import FilterLang.Proofs.Reduction

/-!
# Parsing accepts exactly the grammar

Phases that keep what rows stand for are put together to schedules, and a
schedule that covers every comparison to the reduction of rows with groups. The
main statement, `parseBy_eq_ok_iff`, holds of every such schedule: parsing gives
an expression exactly when the grammar derives it from the tokens and neither
its depth nor the nesting of parentheses exceeds the limit.
-/

namespace FilterLang

namespace Row

/-- Exhaust the phases of a schedule one after another. -/
def exhaustAll
    (limit : Nat)
    (schedule : List Phase)
    (row : Row) : Except ParseError Row :=
  schedule.foldlM (fun row phase => phase.exhaust limit row) row

/-- A schedule takes rows with one property to rows with another, keeps what
they stand for, and does not fail on a row that stands for an expression within
the limit. -/
structure Keeps
    (limit : Nat)
    (schedule : List Phase)
    (Before After : Row → Prop) : Prop where
  sound : ∀ {row final},
    Before row → exhaustAll limit schedule row = .ok final →
    After final ∧ ∀ tree nesting, StandsFor .or final.form tree nesting →
      StandsFor .or row.form tree nesting
  complete : ∀ {row tree nesting}, Before row →
    StandsFor .or row.form tree nesting → tree.depth ≤ limit →
    ∃ final, exhaustAll limit schedule row = .ok final ∧
      StandsFor .or final.form tree nesting

namespace Keeps

variable {limit : Nat} {schedule : List Phase}
  {Before Middle After : Row → Prop}

theorem nil
    (implies : ∀ row, Before row → After row) :
    Keeps limit [] Before After where
  sound := by
    intro row final before exhausted
    simp only [exhaustAll, List.foldlM_nil, pure, Except.pure,
      Except.ok.injEq] at exhausted
    subst exhausted
    exact ⟨implies row before, fun tree nesting derived => derived⟩
  complete := by
    intro row tree nesting before derived within
    exact ⟨row, rfl, derived⟩

theorem weaken
    (keeps : Keeps limit schedule Middle After)
    (implies : ∀ row, Before row → Middle row) :
    Keeps limit schedule Before After where
  sound := fun before exhausted => keeps.sound (implies _ before) exhausted
  complete := fun before derived within =>
    keeps.complete (implies _ before) derived within

/-- A faithful phase in front of a schedule. -/
theorem cons
    {phase : Phase}
    {Allowed : Row → Prop}
    (faithful : phase.Faithful limit Allowed)
    (start : ∀ row, Before row → Allowed row)
    (ended : ∀ row, Allowed row → phase.step? limit row = none → Middle row)
    (later : Keeps limit schedule Middle After) :
    Keeps limit (phase :: schedule) Before After where
  sound := by
    intro row final before exhausted
    rw [exhaustAll, List.foldlM_cons, bind_eq_ok_iff] at exhausted
    obtain ⟨middle, first, rest⟩ := exhausted
    obtain ⟨allowed, done, firstSound⟩ :=
      faithful.of_exhaust (start row before) first
    obtain ⟨after, restSound⟩ := later.sound (ended middle allowed done) rest
    refine ⟨after, ?_⟩
    intro tree nesting derived
    exact firstSound tree nesting (restSound tree nesting derived)
  complete := by
    intro row tree nesting before derived within
    obtain ⟨middle, first, middleDerived⟩ :=
      faithful.exhaust_of_standsFor (start row before) derived within
    obtain ⟨allowed, done, -⟩ := faithful.of_exhaust (start row before) first
    obtain ⟨final, rest, finalDerived⟩ :=
      later.complete (ended middle allowed done) middleDerived within
    refine ⟨final, ?_, finalDerived⟩
    rw [exhaustAll, List.foldlM_cons, bind_eq_ok_iff]
    exact ⟨middle, first, rest⟩

end Keeps

/-! ## The standard phases -/

/-- Tokens of the given comparisons have been used up. -/
def Compared
    (limit : Nat)
    (done : List Comparison)
    (row : Row) : Prop :=
  (∀ slot ∈ row, slot.Fits limit 0 1) ∧
    ∀ found, Slot.token found ∈ row →
      ∀ kind ∈ done, found.kind ≠ .comparison kind

/-- Resolving some comparisons uses up their tokens. -/
theorem keeps_comparisons
    {limit : Nat}
    {done kinds : List Comparison}
    {schedule : List Phase}
    {After : Row → Prop}
    (later : Keeps limit schedule (Compared limit (kinds ++ done)) After) :
    Keeps limit (.binary (kinds.map BinaryOp.comparison) :: schedule)
      (Compared limit done) After := by
  refine .cons ((Phase.faithful_comparisons limit kinds).withTokens
    fun found => ∀ kind ∈ done, found.kind ≠ .comparison kind) ?_ ?_ later
  · intro row compared
    exact compared
  · rintro row ⟨fits, doneBefore⟩ ended
    refine ⟨fits, ?_⟩
    intro found member kind kindMember
    rcases List.mem_append.mp kindMember with now | before
    · have unselected :=
        Phase.step?_binary_eq_none_iff.mp ended (.token found) member
      exact Slot.kind_ne_operator unselected (List.mem_map_of_mem now)
    · exact doneBefore found member kind before

/-- Resolving the comparisons of several rounds uses up the tokens of all. -/
theorem keeps_rounds
    {limit : Nat}
    {done : List Comparison}
    {rounds : List (List Comparison)}
    {schedule : List Phase}
    {After : Row → Prop}
    (covers : ∀ kind : Comparison, kind ∈ done ∨ ∃ kinds ∈ rounds, kind ∈ kinds)
    (later : Keeps limit schedule
      (fun row => ∀ slot ∈ row, slot.Fits limit 1 1) After) :
    Keeps limit
      (rounds.map (fun kinds => .binary (kinds.map BinaryOp.comparison)) ++
        schedule)
      (Compared limit done) After := by
  induction rounds generalizing done with
  | nil =>
      refine later.weaken ?_
      rintro row ⟨fits, compared⟩ slot member
      apply (fits slot member).use
      rintro found rfl
      refine TokenKind.comparison_rank_lt (fits (.token found) member) ?_
      intro kind
      rcases covers kind with before | ⟨round, roundMember, -⟩
      · exact compared found member kind before
      · simp at roundMember
  | cons kinds rounds hypothesis =>
      refine keeps_comparisons (hypothesis ?_)
      intro kind
      rw [List.mem_append]
      rcases covers kind with before | ⟨round, roundMember, kindMember⟩
      · exact Or.inl (Or.inr before)
      · rcases List.mem_cons.mp roundMember with rfl | later
        · exact Or.inl (Or.inl kindMember)
        · exact Or.inr ⟨round, later, kindMember⟩

theorem keeps_negation
    {limit : Nat}
    {schedule : List Phase}
    {After : Row → Prop}
    (later : Keeps limit schedule
      (fun row => ∀ slot ∈ row, slot.Fits limit 2 2) After) :
    Keeps limit (.negation :: schedule)
      (fun row => ∀ slot ∈ row, slot.Fits limit 1 1) After := by
  refine .cons (Phase.faithful_negation limit) ?_ ?_ later
  · intro row fits slot member
    exact (fits slot member).mono (Nat.le_refl 1) (Nat.le_succ 1)
  · intro row fits ended slot member
    apply (fits slot member).use
    rintro found rfl
    have unselected :=
      Phase.step?_negation_eq_none_iff.mp ended (.token found) member
    exact TokenKind.not_rank_lt (fits (.token found) member)
      (Slot.kind_ne_not unselected)

theorem keeps_connective
    {limit : Nat}
    {op : BinaryOp}
    {below level : Level}
    {schedule : List Phase}
    {After : Row → Prop}
    (joins : op.Joins below level)
    (later : Keeps limit schedule
      (fun row => ∀ slot ∈ row, slot.Fits limit level.rank level.rank) After) :
    Keeps limit (.binary [op] :: schedule)
      (fun row => ∀ slot ∈ row, slot.Fits limit below.rank below.rank)
      After := by
  refine .cons (Phase.faithful_connective limit joins) ?_ ?_ later
  · intro row fits
    exact ⟨[], row, rfl, by simp, by simp, fits⟩
  · rintro row ⟨front, back, rfl, -, frontFits, backFits⟩ ended slot member
    have below_le : below.rank ≤ level.rank := by
      rw [joins.rank_eq]
      exact Nat.le_succ _
    have fits : slot.Fits limit below.rank level.rank := by
      rcases List.mem_append.mp member with inFront | inBack
      · exact frontFits slot inFront
      · exact (backFits slot inBack).mono (Nat.le_refl _) below_le
    apply fits.use
    rintro found rfl
    have unselected :=
      Phase.step?_binary_eq_none_iff.mp ended (.token found) member
    exact TokenKind.joined_rank_lt joins fits
      (Slot.kind_ne_operator unselected (by simp))

/-- A schedule that covers every comparison comes down to a row with nothing
left to reduce. -/
theorem keeps_schedule
    {limit : Nat}
    {rounds : List (List Comparison)}
    (covers : ∀ kind : Comparison, ∃ kinds ∈ rounds, kind ∈ kinds) :
    Keeps limit (Phase.schedule rounds)
      (fun row => ∀ slot ∈ row, slot.Fits limit 0 1)
      (fun row => ∀ slot ∈ row, slot.Fits limit 4 4) := by
  have keepsOr :
      Keeps limit [.binary [.or]]
        (fun row => ∀ slot ∈ row, slot.Fits limit 3 3)
        (fun row => ∀ slot ∈ row, slot.Fits limit 4 4) :=
    keeps_connective .or (.nil fun row fits => fits)
  have keepsAnd :
      Keeps limit [.binary [.and], .binary [.or]]
        (fun row => ∀ slot ∈ row, slot.Fits limit 2 2)
        (fun row => ∀ slot ∈ row, slot.Fits limit 4 4) :=
    keeps_connective .and keepsOr
  have compared :
      Keeps limit (Phase.schedule rounds) (Compared limit [])
        (fun row => ∀ slot ∈ row, slot.Fits limit 4 4) :=
    keeps_rounds (fun kind => Or.inr (covers kind)) (keeps_negation keepsAnd)
  refine compared.weaken ?_
  intro row fits
  exact ⟨fits, by simp⟩

/-- A row to which nothing but groups and tokens has come yet. -/
def Fresh
    (limit : Nat)
    (row : Row) : Prop :=
  ∀ slot ∈ row, (∃ found, slot = .token found) ∨
    ∃ subtree, slot = .group subtree ∧ subtree.Sound limit

end Row

namespace Slot

@[simp] theorem symbol_toLeaf (slot : Slot) :
    slot.toLeaf.symbol = slot.symbol := by
  cases slot with
  | token found =>
      obtain ⟨kind, text, span⟩ := found
      cases kind <;> rfl
  | node subtree => rfl
  | group subtree => rfl

/-- Once names and values are leaves, tokens that open no group fit. -/
theorem fits_toLeaf
    {limit : Nat}
    {found : Token}
    (noParen : (token found).openParen? = none) :
    (token found).toLeaf.Fits limit 0 1 := by
  obtain ⟨kind, text, span⟩ := found
  cases kind with
  | operator operator =>
      cases operator with
      | not => exact Nat.zero_lt_succ _
      | binary op => exact op.level.comparison_rank_le
  | identifier => exact ⟨Subtree.sound_leaf rfl, Nat.le_refl 1⟩
  | literal => exact ⟨Subtree.sound_leaf rfl, Nat.le_refl 1⟩
  | openParen =>
      rw [openParen?_eq_some_iff.mpr ⟨rfl, rfl⟩] at noParen
      simp at noParen
  | closeParen => exact Nat.zero_lt_succ _

/-- Opening parentheses are seen as such. -/
theorem openParen?_isSome_iff
    {slot : Slot} :
    slot.openParen?.isSome ↔ slot.symbol = .mark .openParen := by
  constructor
  · intro selected
    obtain ⟨opening, isSome⟩ := Option.isSome_iff_exists.mp selected
    obtain ⟨rfl, isOpening⟩ := openParen?_eq_some_iff.mp isSome
    exact Token.symbol_of_kind isOpening (by simp) (by simp)
  · intro isMark
    obtain ⟨opening, rfl, isOpening⟩ := eq_token_of_mark isMark
    rw [openParen?_eq_some_iff.mpr ⟨rfl, isOpening⟩]
    rfl

theorem isCloseParen_iff_symbol
    {slot : Slot} :
    slot.isCloseParen ↔ slot.symbol = .mark .closeParen := by
  rw [isCloseParen_iff]
  constructor
  · rintro ⟨closing, rfl, isClosing⟩
    exact Token.symbol_of_kind isClosing (by simp) (by simp)
  · exact eq_token_of_mark

end Slot

namespace Row

theorem form_map_toLeaf (row : Row) :
    form (row.map Slot.toLeaf) = form row := by
  unfold form
  rw [List.map_map]
  apply List.map_congr_left
  intro slot member
  exact slot.symbol_toLeaf

theorem Fresh.fits
    {limit : Nat}
    {row : Row}
    (fresh : Fresh limit row)
    (noParen : ∀ slot ∈ row, slot.openParen? = none) :
    ∀ slot ∈ row.map Slot.toLeaf, slot.Fits limit 0 1 := by
  intro leaf leafMember
  obtain ⟨slot, member, rfl⟩ := List.mem_map.mp leafMember
  rcases fresh slot member with ⟨found, rfl⟩ | ⟨subtree, rfl, sound⟩
  · exact Slot.fits_toLeaf (noParen _ member)
  · exact sound

/-- A row without opening parentheses comes down to an expression exactly when
it stands for it and the limit allows for it. -/
theorem assemble_eq_ok_iff
    {limit : Nat}
    {rounds : List (List Comparison)}
    {row : Row}
    {subtree : Subtree}
    (covers : ∀ kind : Comparison, ∃ kinds ∈ rounds, kind ∈ kinds)
    (fresh : Fresh limit row)
    (noParen : ∀ slot ∈ row, slot.openParen? = none)
    (nesting : Nat) :
    row.assemble (Phase.schedule rounds) limit = .ok subtree ↔
      subtree.Sound limit ∧
        StandsFor .or row.form subtree.tree nesting := by
  have keeps : Keeps limit _ _ _ := keeps_schedule covers
  have fits := fresh.fits noParen
  rw [← form_map_toLeaf row, assemble, bind_eq_ok_iff]
  constructor
  · rintro ⟨final, exhausted, isSingle⟩
    obtain ⟨finalFits, back⟩ := keeps.sound fits exhausted
    obtain ⟨slot, rfl, taken⟩ := single_eq_ok_iff.mp isSingle
    have slotFits := finalFits slot (by simp)
    refine ⟨slotFits.sound_of_operand taken, back _ _ ?_⟩
    exact slotFits.standsFor taken (Nat.le_refl 4)
  · rintro ⟨sound, derived⟩
    have within : subtree.tree.depth ≤ limit := by
      rw [← sound.1]
      exact sound.2
    obtain ⟨final, exhausted, finalDerived⟩ :=
      keeps.complete fits derived within
    obtain ⟨finalFits, -⟩ := keeps.sound fits exhausted
    obtain ⟨slot, rfl, symbol_eq⟩ := eq_singleton finalDerived
      (fun found member => finalFits (.token found) member)
    have slotFits := finalFits slot (by simp)
    obtain ⟨depth, taken⟩ := slotFits.operand .not symbol_eq rfl .right
    have depth_eq : depth = subtree.depth :=
      (slotFits.sound_of_operand taken).1.trans sound.1.symm
    subst depth_eq
    exact ⟨[slot], exhausted, single_eq_ok_iff.mpr ⟨slot, rfl, taken⟩⟩

/-! ## Groups -/

theorem openParen_notMem_form_reverse
    {row : Row}
    (unselected : ∀ slot ∈ row, slot.openParen? = none) :
    Symbol.mark .openParen ∉ form row.reverse := by
  intro member
  obtain ⟨slot, slotMember, isOpen⟩ := List.mem_map.mp member
  have selected := Slot.openParen?_isSome_iff.mpr isOpen
  rw [unselected slot (List.mem_reverse.mp slotMember)] at selected
  simp at selected

/-- A row is divided at the parenthesis that the count of open parentheses
reaches. -/
theorem divideAtClose?_append
    {inner outer : Nat}
    {front : Row}
    (balance : openAfter inner front.form = some outer)
    (rest : Row) :
    divideAtClose? inner (front ++ rest) =
      (divideAtClose? outer rest).map fun (contents, after) =>
        (front ++ contents, after) := by
  induction front generalizing inner with
  | nil =>
      obtain rfl : inner = outer := by simpa [form, openAfter] using balance
      simp
  | cons slot front hypothesis =>
      have grow
          {passed : Nat}
          (passedBalance : openAfter passed (form front) = some outer) :
          ((divideAtClose? passed (front ++ rest)).map
              fun (contents, after) => (slot :: contents, after)) =
            (divideAtClose? outer rest).map fun (contents, after) =>
              (slot :: front ++ contents, after) := by
        rw [hypothesis passedBalance, Option.map_map]
        rfl
      rw [form_cons] at balance
      rw [List.cons_append, divideAtClose?_cons]
      by_cases opens : slot.symbol = .mark .openParen
      · rw [opens, openAfter] at balance
        rw [if_pos (Slot.openParen?_isSome_iff.mpr opens)]
        exact grow balance
      · rw [if_neg fun selected =>
          opens (Slot.openParen?_isSome_iff.mp selected)]
        by_cases closes : slot.symbol = .mark .closeParen
        · rw [closes] at balance
          rw [if_pos (Slot.isCloseParen_iff_symbol.mpr closes)]
          cases inner with
          | zero => simp [openAfter] at balance
          | succ passed => exact grow balance
        · rw [openAfter_of_ne opens closes] at balance
          rw [if_neg fun selected =>
            closes (Slot.isCloseParen_iff_symbol.mp selected)]
          exact grow balance

/-- The first group of a row that stands for an expression. Its contents stand
for an expression as well, which may take the place of the group. -/
theorem firstGroup?_of_standsFor
    {level : Level}
    {row : Row}
    {tree : Expr}
    {nesting : Nat}
    (derived : StandsFor level row.form tree nesting) :
    row.firstGroup? = .ok none ∨
      ∃ (group : Group) (inside : Expr) (inner : Nat),
        row.firstGroup? = .ok (some group) ∧
        nesting = inner + 1 ∧
        inside.depth ≤ tree.depth ∧
        StandsFor .or group.contents.form inside inner ∧
        ∀ depth, StandsFor level (group.fill ⟨inside, depth⟩).form
          tree nesting := by
  cases selected : Focus.first? Slot.openParen? row with
  | none =>
      left
      exact firstGroup?_eq_none_iff.mpr (Focus.first?_eq_none_iff.mp selected)
  | some focus =>
      right
      obtain ⟨slot, slotSelected, rfl, unselected⟩ :=
        Focus.first?_eq_some_iff.mp selected
      obtain ⟨rfl, isOpening⟩ := Slot.openParen?_eq_some_iff.mp slotSelected
      have openSymbol : (Slot.token focus.found).symbol = .mark .openParen :=
        Token.symbol_of_kind isOpening (by simp) (by simp)
      rw [Focus.fill_eq, form_append, form_cons, openSymbol] at derived
      have noParen := openParen_notMem_form_reverse unselected
      obtain ⟨contentsForm, restForm, inside, inner, after_eq, rfl, depth_le,
        contentsDerived, outerDerived⟩ := derived.locateOpenParen noParen
      obtain ⟨contents, rest, after_row, rfl, rest_eq⟩ :=
        List.map_eq_append_iff.mp after_eq
      obtain ⟨closeSlot, after, rfl, closeSymbol, rfl⟩ :=
        List.map_eq_cons_iff.mp rest_eq
      obtain ⟨closing, rfl, isClosing⟩ := Slot.eq_token_of_mark closeSymbol
      have balance : openAfter 0 (form contents) = some 0 := by
        have balanced := contentsDerived.openAfter_append 0 []
        rw [List.append_nil] at balanced
        exact balanced
      have divided :
          divideAtClose? 0 (contents ++ .token closing :: after) =
            some (contents, after) := by
        rw [divideAtClose?_append balance, divideAtClose?_cons,
          if_neg fun selected => ?_,
          if_pos (Slot.isCloseParen_iff_symbol.mpr closeSymbol)]
        · simp
        · have isOpen := Slot.openParen?_isSome_iff.mp selected
          rw [closeSymbol] at isOpen
          simp at isOpen
      refine ⟨⟨focus.before, contents, after⟩, inside, inner, ?_, rfl, depth_le,
        contentsDerived, ?_⟩
      · apply firstGroup?_eq_some_iff.mpr
        refine ⟨focus.found, closing, isOpening, isClosing, ?_, unselected,
          divided, ?_⟩
        · rw [after_row]
        · rintro rfl
          exact contentsDerived.ne_nil rfl
      · intro depth
        rw [Group.fill, Focus.fill_eq, form_append, form_cons,
          Slot.symbol_group]
        exact outerDerived

/-- The contents of the first group of a row that stands for an expression. -/
theorem contents_standsFor
    {level : Level}
    {row : Row}
    {group : Group}
    {tree : Expr}
    {nesting : Nat}
    (found : row.firstGroup? = .ok (some group))
    (derived : StandsFor level row.form tree nesting) :
    ∃ (inside : Expr) (inner : Nat),
      nesting = inner + 1 ∧
      inside.depth ≤ tree.depth ∧
      StandsFor .or group.contents.form inside inner ∧
      ∀ depth, StandsFor level (group.fill ⟨inside, depth⟩).form
        tree nesting := by
  rcases firstGroup?_of_standsFor derived with
    noGroup | ⟨other, inside, inner, otherFound, rest⟩
  · rw [noGroup] at found
    simp at found
  · rw [found, Except.ok.injEq, Option.some.injEq] at otherFound
    subst otherFound
    exact ⟨inside, inner, rest⟩

theorem Fresh.contents
    {limit : Nat}
    {row : Row}
    {group : Group}
    (fresh : Fresh limit row)
    (found : row.firstGroup? = .ok (some group)) :
    Fresh limit group.contents := by
  obtain ⟨opening, closing, -, -, rfl, -⟩ := firstGroup?_eq_some_iff.mp found
  intro slot member
  apply fresh
  simp [Focus.fill_eq, member]

theorem Fresh.fill
    {limit : Nat}
    {row : Row}
    {group : Group}
    {subtree : Subtree}
    (fresh : Fresh limit row)
    (found : row.firstGroup? = .ok (some group))
    (sound : subtree.Sound limit) :
    Fresh limit (group.fill subtree) := by
  obtain ⟨opening, closing, -, -, rfl, -⟩ := firstGroup?_eq_some_iff.mp found
  intro slot member
  simp only [Group.fill, Focus.fill_eq, List.mem_append, List.mem_reverse,
    List.mem_cons] at member
  rcases member with inFront | rfl | inBack
  · apply fresh
    simp [Focus.fill_eq, inFront]
  · exact Or.inr ⟨subtree, rfl, sound⟩
  · apply fresh
    simp [Focus.fill_eq, inBack]

/-- What a row stands for with a subexpression in the place of a group, it
stands for with the group itself. -/
theorem standsFor_of_fill
    {level : Level}
    {row : Row}
    {group : Group}
    {subtree : Subtree}
    {tree : Expr}
    {nesting : Nat}
    (found : row.firstGroup? = .ok (some group))
    (contentsDerived : StandsFor .or group.contents.form subtree.tree nesting)
    (derived : StandsFor level (group.fill subtree).form tree (nesting + 1)) :
    StandsFor level row.form tree (nesting + 1) := by
  obtain ⟨opening, closing, isOpening, isClosing, rfl, unselected, -⟩ :=
    firstGroup?_eq_some_iff.mp found
  have noParen := openParen_notMem_form_reverse unselected
  rw [Group.fill, Focus.fill_eq, form_append, form_cons,
    Slot.symbol_group] at derived
  have unfolded := derived.replacePhrase noParen (.group contentsDerived)
  have openSymbol : (Slot.token opening).symbol = .mark .openParen :=
    Token.symbol_of_kind isOpening (by simp) (by simp)
  have closeSymbol : (Slot.token closing).symbol = .mark .closeParen :=
    Token.symbol_of_kind isClosing (by simp) (by simp)
  simpa [Focus.fill_eq, openSymbol, closeSymbol] using unfolded

/-- A row with some groups around it comes down to an expression exactly when it
stands for it, with no more parentheses open than the limit still allows, and
the limit allows for the depth of the expression. -/
theorem reduce_eq_ok_iff
    {limit level : Nat}
    {rounds : List (List Comparison)}
    {row : Row}
    {subtree : Subtree}
    (covers : ∀ kind : Comparison, ∃ kinds ∈ rounds, kind ∈ kinds)
    (fresh : Fresh limit row) :
    row.reduce (Phase.schedule rounds) limit level = .ok subtree ↔
      level ≤ limit ∧ subtree.Sound limit ∧
        StandsFor .or row.form subtree.tree (limit - level) := by
  -- Along the recursion of the reduction: into the contents of the first group,
  -- and on with a subexpression in its place.
  fun_induction reduce (Phase.schedule rounds) limit level row
      generalizing subtree with
  | case1 level row tooDeep =>
      simp only [reduceCtorEq, false_iff, not_and]
      intro le
      omega
  | case2 level row le fault failed =>
      simp only [reduceCtorEq, false_iff, not_and]
      intro _ sound derived
      rcases firstGroup?_of_standsFor derived with none | ⟨_, _, _, found, _⟩
      · rw [none] at failed
        simp at failed
      · rw [found] at failed
        simp at failed
  | case3 level row le noGroup =>
      have noParen := firstGroup?_eq_none_iff.mp noGroup
      rw [assemble_eq_ok_iff covers fresh noParen (limit - level)]
      constructor
      · rintro ⟨sound, derived⟩
        exact ⟨Nat.le_of_not_lt le, sound, derived⟩
      · rintro ⟨-, sound, derived⟩
        exact ⟨sound, derived⟩
  | case4 level row le group found fault failed hypothesis =>
      simp only [reduceCtorEq, false_iff, not_and]
      intro _ sound derived
      obtain ⟨inside, inner, nesting_eq, depth_le, contentsDerived, -⟩ :=
        contents_standsFor found derived
      have insideSound : Subtree.Sound limit ⟨inside, inside.depth⟩ := by
        refine ⟨rfl, ?_⟩
        exact Nat.le_trans depth_le (sound.1 ▸ sound.2)
      have inner_eq : inner = limit - (level + 1) := by omega
      subst inner_eq
      have reduced := (hypothesis (fresh.contents found)).mpr
        ⟨by omega, insideSound, contentsDerived⟩
      rw [failed] at reduced
      simp at reduced
  | case5 level row le group found inside reduced contentsHypothesis
      hypothesis =>
      have contentsFresh := fresh.contents found
      obtain ⟨level_lt, insideSound, insideDerived⟩ :=
        (contentsHypothesis contentsFresh).mp reduced
      have nesting_eq : limit - level = limit - (level + 1) + 1 := by omega
      rw [hypothesis (fresh.fill found insideSound), nesting_eq]
      constructor
      · rintro ⟨level_le, sound, derived⟩
        exact ⟨level_le, sound, standsFor_of_fill found insideDerived derived⟩
      · rintro ⟨level_le, sound, derived⟩
        refine ⟨level_le, sound, ?_⟩
        obtain ⟨tree, inner, inner_eq, depth_le, contentsDerived, filled⟩ :=
          contents_standsFor found derived
        have treeSound : Subtree.Sound limit ⟨tree, tree.depth⟩ := by
          refine ⟨rfl, ?_⟩
          exact Nat.le_trans depth_le (sound.1 ▸ sound.2)
        -- Contents come down to one expression only, so it is the one that
        -- the group contributes to the expression of the row.
        obtain rfl : limit - (level + 1) = inner := by omega
        have same := (contentsHypothesis contentsFresh).mpr
          ⟨level_lt, treeSound, contentsDerived⟩
        rw [reduced, Except.ok.injEq] at same
        subst same
        exact filled tree.depth

theorem fresh_ofTokens
    (limit : Nat)
    (tokens : List Token) :
    Fresh limit (ofTokens tokens) := by
  intro slot member
  obtain ⟨found, -, rfl⟩ := List.mem_map.mp member
  exact Or.inl ⟨found, rfl⟩

theorem form_ofTokens (tokens : List Token) :
    form (ofTokens tokens) = tokens.map Token.symbol := by
  rw [form, ofTokens, List.map_map]
  rfl

end Row

/-- By a schedule that covers every comparison, in whatever rounds, tokens are
parsed to an expression exactly when the grammar derives it from them, with no
more parentheses open at once than the limit, and the limit allows for its
depth. -/
theorem parseBy_eq_ok_iff
    {rounds : List (List Comparison)}
    (covers : ∀ kind : Comparison, ∃ kinds ∈ rounds, kind ∈ kinds)
    (maxDepth : Nat)
    (tokens : List Token)
    (tree : Expr) :
    parseBy (Phase.schedule rounds) maxDepth tokens = .ok tree ↔
      (∃ nesting ≤ maxDepth, Derives .or tokens tree nesting) ∧
        tree.depth ≤ maxDepth := by
  have reduced : ∀ subtree,
      (Row.ofTokens tokens).reduce (Phase.schedule rounds) maxDepth 0 =
          .ok subtree ↔
        0 ≤ maxDepth ∧ subtree.Sound maxDepth ∧
          StandsFor .or (Row.ofTokens tokens).form subtree.tree
            (maxDepth - 0) :=
    fun subtree =>
      Row.reduce_eq_ok_iff covers (Row.fresh_ofTokens maxDepth tokens)
  simp only [parseBy, bind_eq_ok_iff, reduced, Row.form_ofTokens, pure,
    Except.pure, Except.ok.injEq]
  constructor
  · rintro ⟨subtree, ⟨-, sound, derived⟩, rfl⟩
    refine ⟨derived.derives, ?_⟩
    rw [← sound.1]
    exact sound.2
  · rintro ⟨⟨nesting, nesting_le, derived⟩, depth_le⟩
    exact ⟨⟨tree, tree.depth⟩,
      ⟨Nat.zero_le _, ⟨rfl, depth_le⟩, derived.standsFor.mono nesting_le⟩, rfl⟩

/-- The standard schedule covers every comparison. -/
theorem Comparison.standard_covers (kind : Comparison) :
    ∃ kinds ∈ resolutionOrder.map fun kind => [kind], kind ∈ kinds :=
  ⟨[kind], List.mem_map_of_mem (mem_resolutionOrder kind),
    List.mem_singleton_self kind⟩

/-- Tokens are parsed to an expression exactly when the grammar derives it from
them, with no more parentheses open at once than the limit, and the limit allows
for its depth. -/
theorem parse_eq_ok_iff
    (maxDepth : Nat)
    (tokens : List Token)
    (tree : Expr) :
    parse maxDepth tokens = .ok tree ↔
      (∃ nesting ≤ maxDepth, Derives .or tokens tree nesting) ∧
        tree.depth ≤ maxDepth := by
  exact parseBy_eq_ok_iff Comparison.standard_covers maxDepth tokens tree

/-- The leaves of a derived expression are its names and values in turn. -/
theorem Derives.leaves_eq
    {level : Level}
    {tokens : List Token}
    {tree : Expr}
    {nesting : Nat}
    (derived : Derives level tokens tree nesting) :
    tree.leaves = tokens.filterMap Token.leaf? := by
  induction derived with
  | operand stands =>
      simp [stands, Expr.leaves_of_isLeaf (isLeaf_of_leaf? stands)]
  | comparison leftLeaf isOperator rightLeaf =>
      simp [Expr.leaves, leftLeaf, rightLeaf, leaf?_of_operator isOperator,
        Expr.leaves_of_isLeaf (isLeaf_of_leaf? leftLeaf),
        Expr.leaves_of_isLeaf (isLeaf_of_leaf? rightLeaf)]
  | group isOpening derived isClosing hypothesis =>
      simp [hypothesis, Token.leaf?, isOpening, isClosing]
  | notOfComparison derived hypothesis => exact hypothesis
  | not isOperator derived hypothesis =>
      simp [Expr.leaves, hypothesis, leaf?_of_operator isOperator]
  | andOfNot derived hypothesis => exact hypothesis
  | and leftDerived isOperator rightDerived leftHypothesis rightHypothesis =>
      simp [Expr.leaves, leftHypothesis, rightHypothesis,
        leaf?_of_operator isOperator]
  | orOfAnd derived hypothesis => exact hypothesis
  | or leftDerived isOperator rightDerived leftHypothesis rightHypothesis =>
      simp [Expr.leaves, leftHypothesis, rightHypothesis,
        leaf?_of_operator isOperator]

theorem leaves_of_parse
    {maxDepth : Nat}
    {tokens : List Token}
    {tree : Expr}
    (parsed : parse maxDepth tokens = .ok tree) :
    tree.leaves = tokens.filterMap Token.leaf? := by
  obtain ⟨⟨nesting, -, derived⟩, -⟩ :=
    (parse_eq_ok_iff maxDepth tokens tree).mp parsed
  exact derived.leaves_eq

/-- The parser accepts exactly the grammar, within the limit on open parentheses
and on depth, and answers with the tree of the derivation. On all other tokens
it fails. -/
theorem parse_exact_for_grammar
    (maxDepth : Nat)
    (tokens : List Token) :
    (∀ tree,
      parse maxDepth tokens = .ok tree ↔
        (∃ nesting ≤ maxDepth, Derives .or tokens tree nesting) ∧
          tree.depth ≤ maxDepth) ∧
    ((∃ error, parse maxDepth tokens = .error error) ↔
      ¬∃ tree, (∃ nesting ≤ maxDepth, Derives .or tokens tree nesting) ∧
        tree.depth ≤ maxDepth) := by
  refine ⟨parse_eq_ok_iff maxDepth tokens, ?_⟩
  simp only [error_iff_not_ok, parse_eq_ok_iff]

end FilterLang
