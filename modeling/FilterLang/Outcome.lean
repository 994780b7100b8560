/-!
# Steps that may fail

A computation made of steps succeeds exactly when each of its steps does, and
fails with the error of the first step that does not. Two computations whose
steps correspond have outcomes that correspond.
-/

namespace FilterLang

variable {ε α β : Type}

theorem ok_bind
    (value : α)
    (next : α → Except ε β) :
    (Except.ok value >>= next) = next value :=
  rfl

theorem bind_eq_ok_iff
    {first : Except ε α}
    {next : α → Except ε β}
    {result : β} :
    first >>= next = .ok result ↔
      ∃ value, first = .ok value ∧ next value = .ok result := by
  cases first with
  | error fault => simp [bind, Except.bind]
  | ok value => simp [bind, Except.bind]

theorem bind_eq_error_iff
    {first : Except ε α}
    {next : α → Except ε β}
    {fault : ε} :
    first >>= next = .error fault ↔
      first = .error fault ∨
        ∃ value, first = .ok value ∧ next value = .error fault := by
  cases first with
  | error other => simp [bind, Except.bind]
  | ok value => simp [bind, Except.bind]

theorem map_eq_ok_iff
    {outcome : Except ε α}
    {function : α → β}
    {result : β} :
    outcome.map function = .ok result ↔
      ∃ value, outcome = .ok value ∧ function value = result := by
  cases outcome with
  | error fault => simp [Except.map]
  | ok value => simp [Except.map]

theorem mapError_eq_ok_iff
    {outcome : Except ε α}
    {function : ε → β}
    {result : α} :
    outcome.mapError function = .ok result ↔ outcome = .ok result := by
  cases outcome with
  | error fault =>
      have failed :
          (Except.error fault : Except ε α).mapError function =
            .error (function fault) := rfl
      simp [failed]
  | ok value =>
      have succeeded :
          (Except.ok value : Except ε α).mapError function = .ok value := rfl
      simp [succeeded]

theorem map_nil_append (outcome : Except ε (List α)) :
    outcome.map ([] ++ ·) = outcome := by
  cases outcome <;> rfl

theorem map_append_map_append
    (front middle : List α)
    (outcome : Except ε (List α)) :
    (outcome.map (middle ++ ·)).map (front ++ ·) =
      outcome.map (front ++ middle ++ ·) := by
  cases outcome with
  | error fault => rfl
  | ok back => simp only [Except.map, List.append_assoc]

theorem error_iff_not_ok {outcome : Except ε α} :
    (∃ fault, outcome = .error fault) ↔ ¬∃ result, outcome = .ok result := by
  cases outcome with
  | error fault => simp
  | ok value => simp

/-! ## Two computations -/

/-- Two computations both succeed with values, or both fail with errors, that
correspond. -/
inductive OutcomesCorrespond
    (errors : ε → ε → Prop)
    (values : α → α → Prop) : Except ε α → Except ε α → Prop
  | ok
      {value other : α}
      (corresponds : values value other) :
      OutcomesCorrespond errors values (.ok value) (.ok other)
  | error
      {fault other : ε}
      (corresponds : errors fault other) :
      OutcomesCorrespond errors values (.error fault) (.error other)

namespace OutcomesCorrespond

variable {errors : ε → ε → Prop} {values : α → α → Prop}
  {first other : Except ε α}

theorem bind
    {later : β → β → Prop}
    {next otherNext : α → Except ε β}
    (firsts : OutcomesCorrespond errors values first other)
    (nexts : ∀ value otherValue, values value otherValue →
      OutcomesCorrespond errors later (next value) (otherNext otherValue)) :
    OutcomesCorrespond errors later (first >>= next) (other >>= otherNext) := by
  cases firsts with
  | ok corresponds => exact nexts _ _ corresponds
  | error corresponds => exact .error corresponds

theorem map
    {later : β → β → Prop}
    {function otherFunction : α → β}
    (outcomes : OutcomesCorrespond errors values first other)
    (keeps : ∀ value otherValue, values value otherValue →
      later (function value) (otherFunction otherValue)) :
    OutcomesCorrespond errors later (first.map function)
      (other.map otherFunction) := by
  cases outcomes with
  | ok corresponds => exact .ok (keeps _ _ corresponds)
  | error corresponds => exact .error corresponds

theorem mapError
    {later : β → β → Prop}
    {function otherFunction : ε → β}
    (outcomes : OutcomesCorrespond errors values first other)
    (keeps : ∀ fault otherFault, errors fault otherFault →
      later (function fault) (otherFunction otherFault)) :
    OutcomesCorrespond later values (first.mapError function)
      (other.mapError otherFunction) := by
  cases outcomes with
  | ok corresponds => exact .ok corresponds
  | error corresponds => exact .error (keeps _ _ corresponds)

theorem imp_of_ok
    {later : α → α → Prop}
    (outcomes : OutcomesCorrespond errors values first other)
    (implies : ∀ value otherValue, first = .ok value →
      other = .ok otherValue → values value otherValue →
      later value otherValue) :
    OutcomesCorrespond errors later first other := by
  cases outcomes with
  | ok corresponds => exact .ok (implies _ _ rfl rfl corresponds)
  | error corresponds => exact .error corresponds

end OutcomesCorrespond

end FilterLang
