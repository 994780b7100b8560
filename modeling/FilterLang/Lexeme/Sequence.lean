import FilterLang.Lexeme.Cursor

/-!
# The lexemes of a whole text

A source text has one sequence of lexemes, which begins at its first byte and
goes on without gaps up to the end of the text or to the first place where no
rule matches. Cursors walk along this sequence.
-/

namespace FilterLang

/-- The lexemes of a text and the part that no rule divides further. -/
structure LexemeSequence where
  /-- Adjacent lexemes from the start of the text. -/
  lexemes : List Lexeme
  /-- The text from the first place on where no rule matches. -/
  remainder : List Char
  deriving DecidableEq

/-- The lexemes of a text that has `offset` bytes before it. -/
def lexemesFrom
    (rules : RuleTable)
    (offset : Nat)
    (text : List Char) : LexemeSequence :=
  match _matched : rules.firstMatch? text with
  | none => ⟨[], text⟩
  | some (lexicalClass, scan) =>
      let cursor : Cursor := ⟨offset, text⟩
      let later := lexemesFrom rules (cursor.past scan).offset scan.rest
      ⟨cursor.lexeme lexicalClass scan :: later.lexemes, later.remainder⟩
termination_by text.length
decreasing_by exact (RuleTable.divides_of_firstMatch? _matched).length_rest_lt

/-- The lexemes of a source text. -/
def lexemesOf
    (rules : RuleTable)
    (source : String) : LexemeSequence :=
  lexemesFrom rules 0 source.toList

theorem lexemesFrom_of_stuck
    {rules : RuleTable}
    {text : List Char}
    (stuck : rules.firstMatch? text = none)
    (offset : Nat) :
    lexemesFrom rules offset text = ⟨[], text⟩ := by
  rw [lexemesFrom]
  split <;> simp_all

/-- The lexemes of a text are its first one and those of the text behind it. -/
theorem lexemesFrom_of_firstMatch?
    {rules : RuleTable}
    {text : List Char}
    {lexicalClass : LexicalClass}
    {scan : Scan}
    (matched : rules.firstMatch? text = some (lexicalClass, scan))
    (offset : Nat) :
    lexemesFrom rules offset text =
      let later := lexemesFrom rules (offset + byteLength scan.found) scan.rest
      ⟨⟨lexicalClass, scan.found, ⟨offset, offset + byteLength scan.found⟩⟩ ::
          later.lexemes, later.remainder⟩ := by
  rw [lexemesFrom]
  split
  · simp_all
  · rename_i otherMatched
    rw [matched, Option.some.injEq, Prod.mk.injEq] at otherMatched
    obtain ⟨rfl, rfl⟩ := otherMatched
    rfl

/-- A text without lexemes is one where no rule matches. -/
theorem stuck_of_lexemesFrom_nil
    {rules : RuleTable}
    {offset : Nat}
    {text remainder : List Char}
    (sequence : lexemesFrom rules offset text = ⟨[], remainder⟩) :
    rules.firstMatch? text = none ∧ remainder = text := by
  cases matched : rules.firstMatch? text with
  | none =>
      rw [lexemesFrom_of_stuck matched] at sequence
      cases sequence
      exact ⟨rfl, rfl⟩
  | some found =>
      rw [lexemesFrom_of_firstMatch? matched] at sequence
      cases sequence

/-- The first lexeme of a text is what the rules divide off. -/
theorem matched_of_lexemesFrom_cons
    {rules : RuleTable}
    {offset : Nat}
    {text remainder : List Char}
    {lexeme : Lexeme}
    {later : List Lexeme}
    (sequence : lexemesFrom rules offset text = ⟨lexeme :: later, remainder⟩) :
    ∃ rest, rules.firstMatch? text =
        some (lexeme.lexicalClass, ⟨lexeme.text, rest⟩) ∧
      lexemesFrom rules (offset + byteLength lexeme.text) rest =
        ⟨later, remainder⟩ := by
  cases matched : rules.firstMatch? text with
  | none =>
      rw [lexemesFrom_of_stuck matched] at sequence
      cases sequence
  | some found =>
      rw [lexemesFrom_of_firstMatch? matched] at sequence
      cases sequence
      exact ⟨_, rfl, rfl⟩

namespace LexemeSequence

/-- The number of bytes up to the end of the last of the first lexemes. -/
def offsetBehind (sequence : LexemeSequence) : Nat → Nat
  | 0 => 0
  | last + 1 => (sequence.lexemes[last]?).elim 0 fun lexeme => lexeme.span.stop

/-- The place where a sequence ends. -/
def last (sequence : LexemeSequence) : Cursor :=
  ⟨sequence.offsetBehind sequence.lexemes.length, sequence.remainder⟩

/-- The answer to a call when some of the lexemes have been taken, and the number
of lexemes taken then. A call for a token takes the blanks ahead of it as well,
and takes them even if no token follows. -/
def perform
    (sequence : LexemeSequence)
    (taken : Nat) : Cursor.Call → Except LexError Cursor.Reply × Nat
  | .lexeme =>
      match sequence.lexemes[taken]? with
      | some lexeme => (.ok (.lexeme (some lexeme)), taken + 1)
      | none => (sequence.last.ending (.lexeme none), taken)
  | .token =>
      let blanks := (sequence.lexemes.drop taken).takeWhile Lexeme.isBlank
      match sequence.lexemes[taken + blanks.length]? with
      | some lexeme =>
          (.ok (.token lexeme.token?), taken + blanks.length + 1)
      | none =>
          (sequence.last.ending (.token none), taken + blanks.length)

section

variable {sequence : LexemeSequence} {taken : Nat} {lexeme : Lexeme}

/-- Behind the last lexeme there is nothing to take. -/
theorem perform_at_end
    (sequence : LexemeSequence)
    (call : Cursor.Call) :
    sequence.perform sequence.lexemes.length call =
      (sequence.last.ending call.nothing, sequence.lexemes.length) := by
  cases call with
  | lexeme => simp [perform, Cursor.Call.nothing]
  | token => simp [perform, Cursor.Call.nothing]

theorem perform_lexeme
    (next : sequence.lexemes[taken]? = some lexeme) :
    sequence.perform taken .lexeme =
      (.ok (.lexeme (some lexeme)), taken + 1) := by
  rw [perform, next]

theorem drop_eq_cons
    (next : sequence.lexemes[taken]? = some lexeme) :
    sequence.lexemes.drop taken =
      lexeme :: sequence.lexemes.drop (taken + 1) := by
  obtain ⟨taken_lt, lexeme_eq⟩ := List.getElem?_eq_some_iff.mp next
  rw [List.drop_eq_getElem_cons taken_lt, lexeme_eq]

theorem perform_token_of_blank
    (next : sequence.lexemes[taken]? = some lexeme)
    (blank : lexeme.isBlank) :
    sequence.perform taken .token = sequence.perform (taken + 1) .token := by
  simp only [perform, drop_eq_cons next, List.takeWhile_cons_of_pos blank,
    List.length_cons]
  rw [Nat.add_right_comm taken 1]
  rfl

theorem perform_token
    (next : sequence.lexemes[taken]? = some lexeme)
    (notBlank : ¬lexeme.isBlank) :
    sequence.perform taken .token =
      (.ok (.token lexeme.token?), taken + 1) := by
  simp only [perform, drop_eq_cons next, List.takeWhile_cons_of_neg notBlank,
    List.length_nil, Nat.add_zero, next]

/-- No call takes more lexemes than there are, and a call that fails has come to
the end of them. -/
theorem perform_outcome
    (taken_le : taken ≤ sequence.lexemes.length)
    (call : Cursor.Call) :
    (sequence.perform taken call).2 ≤ sequence.lexemes.length ∧
      ∀ error, (sequence.perform taken call).1 = .error error →
        sequence.perform taken call =
          (sequence.last.ending call.nothing, sequence.lexemes.length) := by
  -- A call for a token goes on behind each blank that it takes.
  induction remaining : sequence.lexemes.length - taken using Nat.strongRecOn
      generalizing taken with
  | ind remaining hypothesis =>
      cases next : sequence.lexemes[taken]? with
      | none =>
          obtain rfl : taken = sequence.lexemes.length :=
            Nat.le_antisymm taken_le (List.getElem?_eq_none_iff.mp next)
          rw [perform_at_end]
          exact ⟨Nat.le_refl _, fun _ _ => rfl⟩
      | some lexeme =>
          have taken_lt : taken < sequence.lexemes.length :=
            (List.getElem?_eq_some_iff.mp next).1
          cases call with
          | lexeme =>
              rw [perform_lexeme next]
              exact ⟨taken_lt, fun _ failed => nomatch failed⟩
          | token =>
              by_cases blank : lexeme.isBlank
              · rw [perform_token_of_blank next blank]
                exact hypothesis _ (by omega) taken_lt rfl
              · rw [perform_token next blank]
                exact ⟨taken_lt, fun _ failed => nomatch failed⟩

end

/-- Answer calls in turn, each with the offset behind the lexemes taken after
it. -/
def replay
    (sequence : LexemeSequence)
    (taken : Nat) : List Cursor.Call → List (Except LexError Cursor.Reply × Nat)
  | [] => []
  | call :: calls =>
      let (reply, takenThen) := sequence.perform taken call
      (reply, sequence.offsetBehind takenThen) ::
        sequence.replay takenThen calls

theorem replay_cons
    (sequence : LexemeSequence)
    (taken : Nat)
    (call : Cursor.Call)
    (calls : List Cursor.Call) :
    sequence.replay taken (call :: calls) =
      ((sequence.perform taken call).1,
          sequence.offsetBehind (sequence.perform taken call).2) ::
        sequence.replay (sequence.perform taken call).2 calls := rfl

/-- Behind the last lexeme every call is answered alike, and the offset stays. -/
theorem replay_at_end
    (sequence : LexemeSequence)
    (calls : List Cursor.Call) :
    sequence.replay sequence.lexemes.length calls =
      calls.map fun call =>
        (sequence.last.ending call.nothing, sequence.last.offset) := by
  induction calls with
  | nil => rfl
  | cons call calls hypothesis =>
      rw [replay_cons, perform_at_end, hypothesis]
      rfl

/-- Every error among the answers is the one where the lexemes end. -/
theorem ending_of_error_mem_replay
    {sequence : LexemeSequence}
    {taken offset : Nat}
    {calls : List Cursor.Call}
    {error : LexError}
    (taken_le : taken ≤ sequence.lexemes.length)
    (member : (.error error, offset) ∈ sequence.replay taken calls) :
    (∃ call : Cursor.Call,
      sequence.last.ending call.nothing = .error error) ∧
      offset = sequence.last.offset := by
  induction calls generalizing taken with
  | nil => cases member
  | cons call calls hypothesis =>
      obtain ⟨takenThen_le, fails⟩ := sequence.perform_outcome taken_le call
      rw [replay_cons, List.mem_cons] at member
      rcases member with here | later
      · obtain ⟨failed, offset_eq⟩ := Prod.mk.inj here
        have ended := fails error failed.symm
        rw [ended] at failed offset_eq
        exact ⟨⟨call, failed.symm⟩, offset_eq⟩
      · exact hypothesis takenThen_le later

/-- The tokens of a sequence, unless no rule matches where it ends. -/
def tokens (sequence : LexemeSequence) : Except LexError (List Token) :=
  sequence.last.ending (sequence.lexemes.filterMap Lexeme.token?)

/-- A sequence tiles a source text: adjacent lexemes, each of them the piece that
the rules divide off at its place, lead from the first byte to a place where
no rule matches. -/
structure Tiles
    (sequence : LexemeSequence)
    (rules : RuleTable)
    (source : List Char) : Prop where
  /-- Each lexeme starts where the one before it ends. -/
  adjacent : ∀ index lexeme, sequence.lexemes[index]? = some lexeme →
    lexeme.span.start = sequence.offsetBehind index
  /-- No lexeme is empty. -/
  nonempty : ∀ lexeme ∈ sequence.lexemes,
    lexeme.span.start < lexeme.span.stop
  /-- Each lexeme is the text of its span, whose ends lie between characters,
  and is what the first rule to match divides off there. -/
  divided : ∀ lexeme ∈ sequence.lexemes, ∃ front back,
    source = front ++ (lexeme.text ++ back) ∧
    byteLength front = lexeme.span.start ∧
    byteLength (front ++ lexeme.text) = lexeme.span.stop ∧
    rules.firstMatch? (lexeme.text ++ back) =
      some (lexeme.lexicalClass, ⟨lexeme.text, back⟩)
  /-- Behind the lexemes is the part of the text that no rule divides. -/
  ended : ∃ front,
    source = front ++ sequence.remainder ∧
    byteLength front = sequence.offsetBehind sequence.lexemes.length ∧
    rules.firstMatch? sequence.remainder = none

end LexemeSequence
end FilterLang
