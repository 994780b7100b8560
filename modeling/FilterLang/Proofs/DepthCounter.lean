import FilterLang.Canonical.DepthCounter
import FilterLang.Proofs.CanonicalFormat

/-!
# The depth counter of the reader

What is read with a depth counter is what is read with the levels handed down,
for the counter and the levels that are left always make up the limit. Whoever
reads an expression hands the counter back as it was. Every expression takes up
a character before its operands are read, so the characters that are left bound
both the counter and the calls that are open.
-/

namespace FilterLang
namespace Canonical
namespace Counted

variable {readOperand : Place → Except ReadError (Expr × Place)}
  {countedOperand : Nat → Place → Guarded ReadError (Expr × Place × Nat)}
  {name : String} {counter reached : Nat} {inside place after : Place}
  {tree : Expr}

/-! ## The counter comes back -/

theorem counter_of_readContents
    (restores : ∀ counter place tree after reached,
      countedOperand counter place = .ok (tree, after, reached) →
        reached = counter)
    (read : readContents countedOperand name counter inside =
      .ok (tree, after, reached)) :
    reached = counter := by
  unfold readContents at read
  split at read
  all_goals
    simp only [bind_eq_ok_iff, Prod.exists, pure, Except.pure,
      Except.ok.injEq, Prod.mk.injEq, reduceCtorEq] at read
  · obtain ⟨_, _, -, -, -, rfl⟩ := read
    rfl
  · obtain ⟨_, _, -, -, -, rfl⟩ := read
    rfl
  · obtain ⟨child, closing, _, childRead, -, -, rfl⟩ := read
    exact restores _ _ _ _ _ childRead
  · obtain ⟨left, comma, between, leftRead, second, -, right, closing, _,
      rightRead, -, -, rfl⟩ := read
    obtain rfl := restores _ _ _ _ _ leftRead
    exact restores _ _ _ _ _ rightRead

/-- Behind an expression that has been read, the counter is what it was before
it. -/
theorem counter_of_readTree
    {greatest limit calls : Nat}
    (read : readTree greatest limit calls counter place =
      .ok (tree, after, reached)) :
    reached = counter := by
  induction calls generalizing counter place tree after reached with
  | zero => cases read
  | succ calls hypothesis =>
      rw [readTree] at read
      split at read
      · cases read
      · simp only [bind_eq_ok_iff, Prod.exists, pure, Except.pure,
          Guarded.increment_eq_ok_iff, Guarded.decrement_eq_ok_iff,
          Except.ok.injEq, Prod.mk.injEq] at read
        obtain ⟨raised, ⟨-, rfl⟩, inside, -, contents, closing, beforeClosing,
          contentsRead, behind, -, lowered, beforeClosing_eq, -, -, rfl⟩ := read
        have restored := counter_of_readContents
          (fun _ _ _ _ _ operandRead => hypothesis operandRead) contentsRead
        omega

/-! ## The counter and the levels -/

/-- What has been read, with the counter. -/
def withCounter
    (counter : Nat)
    (read : Expr × Place) : Expr × Place × Nat :=
  (read.1, read.2, counter)

theorem readContents_eq
    (same : ∀ place, place.rest.length ≤ inside.rest.length →
      countedOperand counter place =
        .unbreached ((readOperand place).map (withCounter counter)))
    (shorter : ∀ place tree after, readOperand place = .ok (tree, after) →
      after.rest.length ≤ place.rest.length) :
    readContents countedOperand name counter inside =
      .unbreached ((Canonical.readContents readOperand name inside).map
        (withCounter counter)) := by
  unfold readContents Canonical.readContents
  generalize TokenKind.ofName? name = kind?
  match kind? with
  | some .identifier => cases readText inside <;> rfl
  | some .literal => cases readText inside <;> rfl
  | some (.operator .not) =>
      simp only [same inside (Nat.le_refl _)]
      cases readOperand inside <;> rfl
  | some (.operator (.binary op)) =>
      simp only [same inside (Nat.le_refl _)]
      cases leftRead : readOperand inside with
      | error error => rfl
      | ok read =>
          obtain ⟨left, comma⟩ := read
          have commaShorter := shorter inside left comma leftRead
          simp only [Except.map, withCounter, Guarded.unbreached_ok, ok_bind]
          cases passed : comma.expect ',' with
          | error error => rfl
          | ok second =>
              have secondShorter := Place.length_expect passed
              simp only [Guarded.unbreached_ok, ok_bind]
              rw [same second (by omega)]
              cases readOperand second <;> rfl
  | some .openParen => rfl
  | some .closeParen => rfl
  | none => rfl

theorem length_readTree_le
    {limit levels : Nat}
    (read : Canonical.readTree limit levels place = .ok (tree, after)) :
    after.rest.length ≤ place.rest.length := by
  obtain ⟨-, written, -, spans⟩ :=
    (readsLevels_readTree limit levels place tree after).mp read
  rw [spans.rest, List.length_append]
  exact Nat.le_add_left _ _

/-- Where the counter and the levels that are left make up the limit, both
readers do the same, and the characters that are left bound the counter and the
calls. -/
theorem readTree_eq
    {greatest limit levels calls : Nat}
    (counted : counter + levels = limit + 1)
    (callsLeft : place.rest.length < calls)
    (countsLeft : counter + place.rest.length < greatest) :
    readTree greatest limit calls counter place =
      .unbreached ((Canonical.readTree limit levels place).map
        (withCounter counter)) := by
  induction calls generalizing counter levels place with
  | zero => exact absurd callsLeft (Nat.not_lt_zero _)
  | succ calls hypothesis =>
      rw [readTree]
      cases levels with
      | zero =>
          rw [if_pos (by omega)]
          rfl
      | succ levels =>
          rw [if_neg (by omega), Guarded.increment_of_lt (by omega), ok_bind,
            Canonical.readTree]
          cases opened : (place.skip Char.isUpper).expect '{' with
          | error error => rfl
          | ok inside =>
              have insideShorter := Place.length_expect opened
              have skipShorter := place.length_skip_le Char.isUpper
              have sameContents (name : String) :
                  readContents (readTree greatest limit calls) name
                      (counter + 1) inside =
                    .unbreached ((Canonical.readContents
                      (Canonical.readTree limit levels) name inside).map
                        (withCounter (counter + 1))) := by
                refine readContents_eq ?_ fun _ _ _ => length_readTree_le
                intro other shorter
                exact hypothesis (by omega) (by omega) (by omega)
              simp only [Guarded.unbreached_ok, ok_bind, sameContents]
              cases Canonical.readContents (Canonical.readTree limit levels)
                  (String.ofList (place.rest.takeWhile Char.isUpper)) inside with
              | error error => rfl
              | ok read =>
                  obtain ⟨tree, closing⟩ := read
                  simp only [Except.map, withCounter, Guarded.unbreached_ok,
                    ok_bind]
                  cases closing.expect '}' with
                  | error error => rfl
                  | ok after => rfl

/-- Reading with a counter breaks no bound if one more than the characters of
the text can be counted. -/
theorem read_eq
    {greatest maxDepth : Nat}
    {text : String}
    (length_lt : text.length < greatest) :
    read greatest maxDepth text =
      .unbreached (Canonical.read maxDepth text) := by
  have shorter : (Place.start text.toList).rest.length < greatest := by
    rw [Place.start, String.length_toList]
    exact length_lt
  have same :
      readTree greatest maxDepth greatest 0 (.start text.toList) =
        .unbreached ((Canonical.readTree maxDepth (maxDepth + 1)
          (.start text.toList)).map (withCounter 0)) :=
    readTree_eq (Nat.zero_add _) shorter (by rw [Nat.zero_add]; exact shorter)
  rw [read, same, Canonical.read]
  cases Canonical.readTree maxDepth (maxDepth + 1) (.start text.toList) with
  | error error => rfl
  | ok read =>
      obtain ⟨tree, after⟩ := read
      simp only [Except.map, withCounter, Guarded.unbreached_ok, ok_bind]
      split <;> rfl

end Counted
end Canonical
end FilterLang
