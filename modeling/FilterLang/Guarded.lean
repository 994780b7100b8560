import FilterLang.Outcome

/-!
# Guarded steps

A guarded step looks at what it does: it stops with a breach where an index lies
beyond a row, where a number becomes too great to be counted or would fall below
zero, where a slot is overwritten that is not meant, and where calls are nested
too deeply. A breach is no error of the text that is worked on. A guarded
computation that keeps to every bound comes to the outcome that it has without
guards.
-/

namespace FilterLang

/-- What no computation may do. -/
inductive Breach
  /-- There is nothing at an index. -/
  | outOfRange
  /-- A number is greater than can be counted. -/
  | overflow
  /-- A number falls below zero. -/
  | underflow
  /-- Something else is overwritten than what is meant. -/
  | otherSlot
  /-- Too many calls are open at once. -/
  | tooManyCalls
  deriving DecidableEq

/-- Why a guarded computation stops. -/
inductive Stop (ε : Type)
  /-- There is an error in what is worked on. -/
  | fault (error : ε)
  /-- A bound has not been kept to. -/
  | breach (breach : Breach)
  deriving DecidableEq

/-- A computation that may fail and that is guarded. -/
abbrev Guarded (ε α : Type) :=
  Except (Stop ε) α

namespace Guarded

variable {ε α β : Type}

/-- A computation that keeps to every bound, by its outcome. -/
def unbreached (outcome : Except ε α) : Guarded ε α :=
  outcome.mapError .fault

/-- Count one more, up to a greatest number. -/
def increment (greatest number : Nat) : Guarded ε Nat :=
  if number < greatest then
    .ok (number + 1)
  else
    .error (.breach .overflow)

/-- Count one less. -/
def decrement : Nat → Guarded ε Nat
  | 0 => .error (.breach .underflow)
  | number + 1 => .ok number

@[simp] theorem unbreached_ok (value : α) :
    unbreached (.ok value : Except ε α) = .ok value := rfl

@[simp] theorem unbreached_error (error : ε) :
    unbreached (.error error : Except ε α) = .error (.fault error) := rfl

theorem unbreached_bind
    (first : Except ε α)
    (next : α → Except ε β) :
    unbreached (first >>= next) =
      unbreached first >>= fun value => unbreached (next value) := by
  cases first with
  | error error => rfl
  | ok value => rfl

theorem increment_of_lt
    {greatest number : Nat}
    (less : number < greatest) :
    (increment greatest number : Guarded ε Nat) = .ok (number + 1) :=
  if_pos less

theorem increment_eq_ok_iff
    {greatest number next : Nat} :
    (increment greatest number : Guarded ε Nat) = .ok next ↔
      number < greatest ∧ next = number + 1 := by
  unfold increment
  by_cases less : number < greatest
  · simp [less, eq_comm]
  · simp [less]

theorem decrement_eq_ok_iff
    {number next : Nat} :
    (decrement number : Guarded ε Nat) = .ok next ↔ number = next + 1 := by
  cases number <;> simp [decrement]

end Guarded
end FilterLang
