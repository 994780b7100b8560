import FilterLang.Lexeme.LexicalClass
import FilterLang.Outcome
import FilterLang.Text.Quoted

/-!
# Lexemes one after another

A cursor stands at a place of a source text. It yields lexemes, blanks
included, or tokens, for which it skips blanks; the two kinds of call may be
mixed. Where no rule matches, every call answers the same error and the cursor
stays, though blanks skipped on the way to that place stay skipped.
-/

namespace FilterLang

/-- A classified piece of a source text, blank or not. -/
structure Lexeme where
  /-- The class of the piece. -/
  lexicalClass : LexicalClass
  /-- The whole text of the piece. -/
  text : List Char
  /-- The bytes that the piece takes up. -/
  span : Span
  deriving DecidableEq

/-- The number of bytes that a text takes up. -/
def byteLength (text : List Char) : Nat :=
  text.foldr (fun character total => character.utf8Size + total) 0

@[simp] theorem byteLength_nil : byteLength [] = 0 := rfl

@[simp] theorem byteLength_cons (character : Char) (text : List Char) :
    byteLength (character :: text) = character.utf8Size + byteLength text := rfl

@[simp] theorem byteLength_append (front back : List Char) :
    byteLength (front ++ back) = byteLength front + byteLength back := by
  induction front with
  | nil => simp
  | cons character front hypothesis => simp [hypothesis, Nat.add_assoc]

theorem byteLength_pos
    {text : List Char}
    (nonempty : text ≠ []) :
    0 < byteLength text := by
  cases text with
  | nil => exact absurd rfl nonempty
  | cons character text =>
      rw [byteLength_cons]
      exact Nat.add_pos_left character.utf8Size_pos _

@[simp] theorem byteLength_eq_zero_iff {text : List Char} :
    byteLength text = 0 ↔ text = [] := by
  cases text with
  | nil => simp
  | cons character text =>
      have nonempty := List.cons_ne_nil character text
      exact iff_of_false (Nat.ne_of_gt (byteLength_pos nonempty)) nonempty

namespace Lexeme

/-- Whether a lexeme is a run of blanks. -/
def isBlank (lexeme : Lexeme) : Bool :=
  lexeme.lexicalClass = .blank

/-- The text of a literal without its double quotes, if it has them. -/
def withoutQuotes : List Char → List Char
  | '"' :: text => text.dropLast
  | text => text

theorem withoutQuotes_of_head_ne_quote
    {text : List Char}
    (notQuote : text.head? ≠ some '"') :
    withoutQuotes text = text := by
  unfold withoutQuotes
  split
  · exact absurd rfl notQuote
  · rfl

/-- The text that a lexeme hands to its token. -/
def tokenText
    (kind : TokenKind)
    (text : List Char) : List Char :=
  if kind = .literal then withoutQuotes text else text

/-- The token of a lexeme; a blank has none. -/
def token? (lexeme : Lexeme) : Option Token :=
  match lexeme.lexicalClass with
  | .blank => none
  | .token kind =>
      some ⟨kind, String.ofList (tokenText kind lexeme.text), lexeme.span⟩

end Lexeme

/-- No rule matches at a place of the source text. -/
structure LexError where
  /-- The source text from that place on. -/
  remainder : String
  /-- The place of its first byte, counted from one. -/
  position : Nat
  deriving DecidableEq

/-- The text of a lexical error. -/
def LexError.message (error : LexError) : String :=
  "unexpected token in condition at position " ++ error.position.repr ++
    ": " ++ Quoted.quote error.remainder

/-- A place in a source text. -/
structure Cursor where
  /-- The number of bytes before the place. -/
  offset : Nat
  /-- The text from the place on. -/
  rest : List Char
  deriving DecidableEq

namespace Cursor

/-- The cursor at the start of a source text. -/
def start (source : String) : Cursor :=
  ⟨0, source.toList⟩

/-- The place behind a scanned piece of the text. -/
def past
    (cursor : Cursor)
    (scan : Scan) : Cursor :=
  ⟨cursor.offset + byteLength scan.found, scan.rest⟩

/-- The piece between a cursor and the place behind it. -/
def lexeme
    (cursor : Cursor)
    (lexicalClass : LexicalClass)
    (scan : Scan) : Lexeme :=
  ⟨lexicalClass, scan.found, ⟨cursor.offset, (cursor.past scan).offset⟩⟩

/-- The error of a cursor at whose place no rule matches. -/
def fault (cursor : Cursor) : LexError :=
  ⟨String.ofList cursor.rest, cursor.offset + 1⟩

/-- The answer of a cursor at whose place no rule matches: the text has ended or
cannot be divided further. -/
def ending
    {α : Type}
    (cursor : Cursor)
    (answer : α) : Except LexError α :=
  if cursor.rest.isEmpty then .ok answer else .error cursor.fault

theorem map_ending
    {α β : Type}
    {function : α → β}
    (cursor : Cursor)
    (answer : α) :
    (cursor.ending answer).map function = cursor.ending (function answer) := by
  unfold ending
  split <;> rfl

theorem ending_eq_ok_iff
    {α : Type}
    {cursor : Cursor}
    {answer value : α} :
    cursor.ending answer = .ok value ↔ cursor.rest = [] ∧ answer = value := by
  unfold ending
  split
  · rename_i ended
    simp [List.isEmpty_iff.mp ended]
  · rename_i notEnded
    simp [mt List.isEmpty_iff.mpr notEnded]

/-- Where the text has not ended, the answer is an error with the text that is
left, at the first byte of it. -/
theorem ending_eq
    {α : Type}
    {cursor : Cursor}
    {remainder : String}
    (rest_eq : cursor.rest = remainder.toList)
    (answer : α) :
    cursor.ending answer =
      if remainder = "" then
        .ok answer
      else
        .error ⟨remainder, cursor.offset + 1⟩ := by
  have ended_iff : remainder.toList.isEmpty ↔ remainder = "" := by
    rw [List.isEmpty_iff, String.toList_eq_nil_iff]
  rw [ending, fault, rest_eq, String.ofList_toList]
  simp only [ended_iff]

/-- Take the next lexeme, if the text has not ended. -/
def nextLexeme
    (rules : RuleTable)
    (cursor : Cursor) : Except LexError (Option Lexeme) × Cursor :=
  if cursor.rest.isEmpty then
    (.ok none, cursor)
  else
    match rules.firstMatch? cursor.rest with
    | none => (.error cursor.fault, cursor)
    | some (lexicalClass, scan) =>
        (.ok (some (cursor.lexeme lexicalClass scan)), cursor.past scan)

theorem length_rest_of_nextLexeme
    {rules : RuleTable}
    {cursor next : Cursor}
    {lexeme : Lexeme}
    (taken : cursor.nextLexeme rules = (.ok (some lexeme), next)) :
    next.rest.length < cursor.rest.length := by
  simp only [nextLexeme] at taken
  split at taken
  · simp at taken
  · split at taken
    · simp at taken
    · rename_i lexicalClass scan matched
      simp only [Prod.mk.injEq] at taken
      rw [← taken.2]
      exact (RuleTable.divides_of_firstMatch? matched).length_rest_lt

/-- Take the next lexeme that is not blank. -/
def nextToken
    (rules : RuleTable)
    (cursor : Cursor) : Except LexError (Option Token) × Cursor :=
  match _taken : cursor.nextLexeme rules with
  | (.error error, next) => (.error error, next)
  | (.ok none, next) => (.ok none, next)
  | (.ok (some lexeme), next) =>
      match lexeme.token? with
      | some token => (.ok (some token), next)
      | none => next.nextToken rules
termination_by cursor.rest.length
decreasing_by exact length_rest_of_nextLexeme _taken

theorem length_rest_of_nextToken
    {rules : RuleTable}
    {cursor next : Cursor}
    {token : Token}
    (taken : cursor.nextToken rules = (.ok (some token), next)) :
    next.rest.length < cursor.rest.length := by
  fun_induction nextToken rules cursor with
  | case1 => simp at taken
  | case2 => simp at taken
  | case3 cursor lexeme after lexemeTaken found isToken =>
      simp only [Prod.mk.injEq] at taken
      rw [← taken.2]
      exact length_rest_of_nextLexeme lexemeTaken
  | case4 cursor lexeme after lexemeTaken isBlank hypothesis =>
      exact Nat.lt_trans (hypothesis taken)
        (length_rest_of_nextLexeme lexemeTaken)

theorem nextLexeme_of_firstMatch?
    {rules : RuleTable}
    {cursor : Cursor}
    {lexicalClass : LexicalClass}
    {scan : Scan}
    (matched : rules.firstMatch? cursor.rest = some (lexicalClass, scan)) :
    cursor.nextLexeme rules =
      (.ok (some (cursor.lexeme lexicalClass scan)), cursor.past scan) := by
  have notEnded : ¬cursor.rest.isEmpty := by
    intro ended
    have shorter :=
      (RuleTable.divides_of_firstMatch? matched).length_rest_lt
    rw [List.isEmpty_iff.mp ended] at shorter
    simp at shorter
  rw [nextLexeme, if_neg notEnded, matched]

/-- Where no rule matches, the cursor stays. -/
theorem nextLexeme_of_stuck
    {rules : RuleTable}
    {cursor : Cursor}
    (stuck : rules.firstMatch? cursor.rest = none) :
    cursor.nextLexeme rules = (cursor.ending none, cursor) := by
  rw [nextLexeme, stuck, ending]
  split <;> rfl

/-- The token of a scanned piece at a cursor. -/
def token
    (cursor : Cursor)
    (kind : TokenKind)
    (scan : Scan) : Token :=
  ⟨kind, String.ofList (Lexeme.tokenText kind scan.found),
    ⟨cursor.offset, (cursor.past scan).offset⟩⟩

theorem nextToken_eq
    (rules : RuleTable)
    (cursor : Cursor) :
    cursor.nextToken rules =
      match cursor.nextLexeme rules with
      | (.error error, next) => (.error error, next)
      | (.ok none, next) => (.ok none, next)
      | (.ok (some lexeme), next) =>
          match lexeme.token? with
          | some token => (.ok (some token), next)
          | none => next.nextToken rules := by
  rw [nextToken]
  split
  · rename_i failed
    rw [failed]
  · rename_i ended
    rw [ended]
  · rename_i taken
    rw [taken]

theorem nextToken_of_firstMatch?
    {rules : RuleTable}
    {cursor : Cursor}
    {lexicalClass : LexicalClass}
    {scan : Scan}
    (matched : rules.firstMatch? cursor.rest = some (lexicalClass, scan)) :
    cursor.nextToken rules =
      match (cursor.lexeme lexicalClass scan).token? with
      | some token => (.ok (some token), cursor.past scan)
      | none => (cursor.past scan).nextToken rules := by
  rw [nextToken_eq, nextLexeme_of_firstMatch? matched]

/-- Blanks in front of a token are skipped. -/
theorem nextToken_of_blank
    {rules : RuleTable}
    {cursor : Cursor}
    {scan : Scan}
    (matched : rules.firstMatch? cursor.rest = some (.blank, scan)) :
    cursor.nextToken rules = (cursor.past scan).nextToken rules := by
  rw [nextToken_of_firstMatch? matched]
  rfl

theorem nextToken_of_token
    {rules : RuleTable}
    {cursor : Cursor}
    {kind : TokenKind}
    {scan : Scan}
    (matched : rules.firstMatch? cursor.rest = some (.token kind, scan)) :
    cursor.nextToken rules =
      (.ok (some (cursor.token kind scan)), cursor.past scan) := by
  rw [nextToken_of_firstMatch? matched]
  rfl

/-- Where no rule matches, the cursor stays. -/
theorem nextToken_of_stuck
    {rules : RuleTable}
    {cursor : Cursor}
    (stuck : rules.firstMatch? cursor.rest = none) :
    cursor.nextToken rules = (cursor.ending none, cursor) := by
  rw [nextToken_eq, nextLexeme_of_stuck stuck]
  cases ended : cursor.rest.isEmpty with
  | true => simp only [ending, ended, if_true]
  | false => simp only [ending, ended, Bool.false_eq_true, if_false]

theorem nextToken_at_end
    {cursor : Cursor}
    (rules : RuleTable)
    (atEnd : cursor.rest = []) :
    cursor.nextToken rules = (.ok none, cursor) := by
  have ended : cursor.nextLexeme rules = (.ok none, cursor) := by
    rw [nextLexeme, if_pos (List.isEmpty_iff.mpr atEnd)]
  rw [nextToken_eq, ended]

/-- A token that a cursor yields is the piece that the rules divide off at some
place. -/
theorem exists_firstMatch?_of_nextToken
    {rules : RuleTable}
    {cursor next : Cursor}
    {token : Token}
    (taken : cursor.nextToken rules = (.ok (some token), next)) :
    ∃ (place : Cursor) (kind : TokenKind) (scan : Scan),
      rules.firstMatch? place.rest = some (.token kind, scan) ∧
        token = place.token kind scan := by
  fun_induction nextToken rules cursor with
  | case1 => simp at taken
  | case2 => simp at taken
  | case3 cursor lexeme after lexemeTaken found isToken =>
      simp only [Prod.mk.injEq, Except.ok.injEq, Option.some.injEq] at taken
      obtain ⟨rfl, rfl⟩ := taken
      unfold nextLexeme at lexemeTaken
      split at lexemeTaken
      · simp at lexemeTaken
      · split at lexemeTaken
        · simp at lexemeTaken
        · rename_i lexicalClass scan matched
          simp only [Prod.mk.injEq, Except.ok.injEq, Option.some.injEq]
            at lexemeTaken
          obtain ⟨rfl, rfl⟩ := lexemeTaken
          cases lexicalClass with
          | blank => simp [Lexeme.token?, lexeme] at isToken
          | token kind =>
              refine ⟨cursor, kind, scan, matched, ?_⟩
              simpa [Lexeme.token?, lexeme, Cursor.token] using isToken.symm
  | case4 cursor lexeme after lexemeTaken isBlank hypothesis =>
      exact hypothesis taken

/-- A call on a cursor: for the next lexeme, or for the next token. -/
inductive Call
  | lexeme
  | token
  deriving DecidableEq

/-- The answer to a call; there is nothing to take at the end of the text. -/
inductive Reply
  | lexeme (taken : Option Lexeme)
  | token (taken : Option Token)
  deriving DecidableEq

/-- Answer one call. -/
def perform
    (rules : RuleTable)
    (cursor : Cursor) : Call → Except LexError Reply × Cursor
  | .lexeme =>
      let (taken, next) := cursor.nextLexeme rules
      (taken.map .lexeme, next)
  | .token =>
      let (taken, next) := cursor.nextToken rules
      (taken.map .token, next)

/-- The answer to a call where there is nothing to take. -/
def Call.nothing : Call → Reply
  | lexeme => .lexeme none
  | token => .token none

theorem perform_of_stuck
    {rules : RuleTable}
    {cursor : Cursor}
    (stuck : rules.firstMatch? cursor.rest = none)
    (call : Call) :
    cursor.perform rules call = (cursor.ending call.nothing, cursor) := by
  cases call with
  | lexeme =>
      rw [perform, nextLexeme_of_stuck stuck]
      exact congrArg (·, cursor) (cursor.map_ending none)
  | token =>
      rw [perform, nextToken_of_stuck stuck]
      exact congrArg (·, cursor) (cursor.map_ending none)

theorem perform_lexeme_of_firstMatch?
    {rules : RuleTable}
    {cursor : Cursor}
    {lexicalClass : LexicalClass}
    {scan : Scan}
    (matched : rules.firstMatch? cursor.rest = some (lexicalClass, scan)) :
    cursor.perform rules .lexeme =
      (.ok (.lexeme (some (cursor.lexeme lexicalClass scan))),
        cursor.past scan) := by
  rw [perform, nextLexeme_of_firstMatch? matched]
  rfl

theorem perform_token_of_blank
    {rules : RuleTable}
    {cursor : Cursor}
    {scan : Scan}
    (matched : rules.firstMatch? cursor.rest = some (.blank, scan)) :
    cursor.perform rules .token = (cursor.past scan).perform rules .token := by
  rw [perform, nextToken_of_blank matched]
  rfl

theorem perform_token_of_token
    {rules : RuleTable}
    {cursor : Cursor}
    {kind : TokenKind}
    {scan : Scan}
    (matched : rules.firstMatch? cursor.rest = some (.token kind, scan)) :
    cursor.perform rules .token =
      (.ok (.token (some (cursor.token kind scan))), cursor.past scan) := by
  rw [perform, nextToken_of_token matched]
  rfl

/-- Answer calls in turn, each with the offset of the cursor after it. -/
def replay
    (rules : RuleTable)
    (cursor : Cursor) : List Call → List (Except LexError Reply × Nat)
  | [] => []
  | call :: calls =>
      let (reply, next) := cursor.perform rules call
      (reply, next.offset) :: next.replay rules calls

/-- Take tokens up to the end of the text. -/
def tokens
    (rules : RuleTable)
    (cursor : Cursor) : Except LexError (List Token) :=
  match _taken : cursor.nextToken rules with
  | (.error error, _) => .error error
  | (.ok none, _) => .ok []
  | (.ok (some token), next) => (next.tokens rules).map (token :: ·)
termination_by cursor.rest.length
decreasing_by exact length_rest_of_nextToken _taken

theorem tokens_eq
    (rules : RuleTable)
    (cursor : Cursor) :
    cursor.tokens rules =
      match cursor.nextToken rules with
      | (.error error, _) => .error error
      | (.ok none, _) => .ok []
      | (.ok (some token), next) => (next.tokens rules).map (token :: ·) := by
  rw [tokens]
  split
  · rename_i failed
    rw [failed]
  · rename_i ended
    rw [ended]
  · rename_i taken
    rw [taken]

/-- Blanks make no tokens. -/
theorem tokens_of_blank
    {rules : RuleTable}
    {cursor : Cursor}
    {scan : Scan}
    (matched : rules.firstMatch? cursor.rest = some (.blank, scan)) :
    cursor.tokens rules = (cursor.past scan).tokens rules := by
  rw [tokens_eq, nextToken_of_blank matched, ← tokens_eq]

theorem tokens_of_token
    {rules : RuleTable}
    {cursor : Cursor}
    {kind : TokenKind}
    {scan : Scan}
    (matched : rules.firstMatch? cursor.rest = some (.token kind, scan)) :
    cursor.tokens rules =
      ((cursor.past scan).tokens rules).map (cursor.token kind scan :: ·) := by
  rw [tokens_eq, nextToken_of_token matched]

/-- The tokens of a text are that of its first lexeme, if it has one, and those
of the text behind it. -/
theorem tokens_of_firstMatch?
    {rules : RuleTable}
    {text : List Char}
    {lexicalClass : LexicalClass}
    {scan : Scan}
    (matched : rules.firstMatch? text = some (lexicalClass, scan))
    (offset : Nat) :
    tokens rules ⟨offset, text⟩ =
      (tokens rules ⟨offset + byteLength scan.found, scan.rest⟩).map
        ((Lexeme.token? ⟨lexicalClass, scan.found,
          ⟨offset, offset + byteLength scan.found⟩⟩).toList ++ ·) := by
  cases lexicalClass with
  | blank =>
      rw [@tokens_of_blank rules ⟨offset, text⟩ scan matched]
      exact (map_nil_append _).symm
  | token kind =>
      rw [@tokens_of_token rules ⟨offset, text⟩ kind scan matched]
      rfl

theorem tokens_of_stuck
    {rules : RuleTable}
    {cursor : Cursor}
    (stuck : rules.firstMatch? cursor.rest = none) :
    cursor.tokens rules = cursor.ending [] := by
  rw [tokens_eq, nextToken_of_stuck stuck]
  cases ended : cursor.rest.isEmpty with
  | true => simp only [ending, ended, if_true]
  | false => simp only [ending, ended, Bool.false_eq_true, if_false]

theorem tokens_at_end
    (rules : RuleTable)
    (offset : Nat) :
    tokens rules ⟨offset, []⟩ = .ok [] := by
  rw [tokens_eq, nextToken_at_end rules rfl]

/-- From one cursor to another, tokens are taken one after another. -/
inductive Takes (rules : RuleTable) : Cursor → List Token → Cursor → Prop
  | nil
      {cursor : Cursor} :
      Takes rules cursor [] cursor
  | cons
      {cursor next last : Cursor}
      {token : Token}
      {tokens : List Token}
      (taken : cursor.nextToken rules = (.ok (some token), next))
      (later : Takes rules next tokens last) :
      Takes rules cursor (token :: tokens) last

theorem Takes.append
    {rules : RuleTable}
    {cursor middle last : Cursor}
    {front back : List Token}
    (frontTaken : Takes rules cursor front middle)
    (backTaken : Takes rules middle back last) :
    Takes rules cursor (front ++ back) last := by
  induction frontTaken with
  | nil => exact backTaken
  | cons taken later hypothesis => exact .cons taken (hypothesis backTaken)

/-- All tokens up to the end of the text. -/
theorem tokens_eq_ok_iff
    {rules : RuleTable}
    {cursor : Cursor}
    {tokens : List Token} :
    cursor.tokens rules = .ok tokens ↔
      ∃ last ending, Takes rules cursor tokens last ∧
        last.nextToken rules = (.ok none, ending) := by
  fun_induction Cursor.tokens rules cursor generalizing tokens with
  | case1 cursor fault next failed =>
      simp only [reduceCtorEq, false_iff]
      rintro ⟨last, ending, takes, ended⟩
      cases takes with
      | nil => simp [failed] at ended
      | cons taken later => simp [failed] at taken
  | case2 cursor next ended =>
      constructor
      · intro answer
        simp only [Except.ok.injEq] at answer
        subst answer
        exact ⟨cursor, next, .nil, ended⟩
      · rintro ⟨last, ending, takes, -⟩
        cases takes with
        | nil => rfl
        | cons taken later => simp [ended] at taken
  | case3 cursor token next taken hypothesis =>
      simp only [map_eq_ok_iff, hypothesis]
      constructor
      · rintro ⟨tokens, ⟨last, ending, takes, ended⟩, rfl⟩
        exact ⟨last, ending, .cons taken takes, ended⟩
      · rintro ⟨last, ending, takes, ended⟩
        cases takes with
        | nil => simp [taken] at ended
        | cons takenFirst later =>
            simp only [taken, Prod.mk.injEq, Except.ok.injEq,
              Option.some.injEq] at takenFirst
            obtain ⟨rfl, rfl⟩ := takenFirst
            exact ⟨_, ⟨last, ending, later, ended⟩, rfl⟩

end Cursor

/-- Divide a source text into tokens by a rule table. -/
def tokenizeWith
    (rules : RuleTable)
    (source : String) : Except LexError (List Token) :=
  (Cursor.start source).tokens rules

/-- Divide a filter expression into tokens: all of them, or the first error. -/
def tokenize (source : String) : Except LexError (List Token) :=
  tokenizeWith .standard source

end FilterLang
