import FilterLang.Proofs.Pieces

/-!
# One text behind another

What stands behind a text does not change its tokens unless a piece of the text
goes on with the character behind it, and what stands before a text does not
change its tokens but moves them. So the tokens of two texts, one behind the
other, are those of the first and then those of the second, moved by the bytes
of the first.
-/

namespace FilterLang

/-- A token with more bytes before it. -/
def Token.shift
    (bytes : Nat)
    (token : Token) : Token :=
  { token with span := ⟨bytes + token.span.start, bytes + token.span.stop⟩ }

/-- An error with more bytes before its place. -/
def LexError.shift
    (bytes : Nat)
    (error : LexError) : LexError :=
  { error with position := bytes + error.position }

/-- Tokens, or an error, with more bytes before their text. -/
def shiftTokens
    (bytes : Nat)
    (outcome : Except LexError (List Token)) : Except LexError (List Token) :=
  (outcome.map (List.map (Token.shift bytes))).mapError (LexError.shift bytes)

theorem shiftTokens_map_append
    (bytes : Nat)
    (front : List Token)
    (outcome : Except LexError (List Token)) :
    shiftTokens bytes (outcome.map (front ++ ·)) =
      (shiftTokens bytes outcome).map (front.map (Token.shift bytes) ++ ·) := by
  cases outcome with
  | ok tokens => exact congrArg Except.ok List.map_append
  | error error => rfl

theorem token?_shift
    (bytes : Nat)
    (lexicalClass : LexicalClass)
    (text : List Char)
    (span : Span) :
    Lexeme.token? ⟨lexicalClass, text,
        ⟨bytes + span.start, bytes + span.stop⟩⟩ =
      (Lexeme.token? ⟨lexicalClass, text, span⟩).map (Token.shift bytes) := by
  cases lexicalClass <;> rfl

namespace Cursor

/-- The tokens of a text with more bytes before it, by induction along its
pieces. -/
theorem tokens_shift
    (rules : RuleTable)
    (bytes offset : Nat)
    (text : List Char) :
    tokens rules ⟨bytes + offset, text⟩ =
      shiftTokens bytes (tokens rules ⟨offset, text⟩) := by
  induction text using RuleTable.textInduction rules generalizing offset with
  | stuck text matchless =>
      have stuck (offset : Nat) :
          tokens rules ⟨offset, text⟩ = ending ⟨offset, text⟩ [] :=
        tokens_of_stuck matchless
      rw [stuck, stuck, ending, ending]
      split <;> rfl
  | divided text lexicalClass scan matched hypothesis =>
      have token_eq := token?_shift bytes lexicalClass scan.found
        ⟨offset, offset + byteLength scan.found⟩
      rw [tokens_of_firstMatch? matched, tokens_of_firstMatch? matched,
        shiftTokens_map_append, Nat.add_assoc, token_eq, Option.toList_map,
        hypothesis]

end Cursor

/-! ## Texts divided in front of another text -/

/-- The rules divide a text into pieces while another text stands behind it. -/
inductive DividesBefore (later : List Char) : List Char → Prop
  | nil : DividesBefore later []
  | piece
      {lexicalClass : LexicalClass}
      {found rest : List Char}
      (matched : RuleTable.standard.firstMatch? (found ++ rest ++ later) =
        some (lexicalClass, ⟨found, rest ++ later⟩))
      (divides : DividesBefore later rest) :
      DividesBefore later (found ++ rest)

/-- The text behind is divided no differently, and the text in front has its
tokens with or without it, by induction along the pieces of the text in front. -/
theorem DividesBefore.tokens
    {text later : List Char}
    (divides : DividesBefore later text)
    (offset : Nat) :
    ∃ front, Cursor.tokens .standard ⟨offset, text⟩ = .ok front ∧
      Cursor.tokens .standard ⟨offset, text ++ later⟩ =
        (Cursor.tokens .standard ⟨offset + byteLength text, later⟩).map
          (front ++ ·) := by
  induction divides generalizing offset with
  | nil =>
      exact ⟨[], Cursor.tokens_at_end .standard offset,
        (map_nil_append _).symm⟩
  | @piece lexicalClass found rest matched _ hypothesis =>
      obtain ⟨front, frontTokens, append⟩ :=
        hypothesis (offset + byteLength found)
      have matchedAlone := RuleTable.firstMatch?_of_append matched
      let token := Lexeme.token?
        ⟨lexicalClass, found, ⟨offset, offset + byteLength found⟩⟩
      refine ⟨token.toList ++ front, ?_, ?_⟩
      · rw [Cursor.tokens_of_firstMatch? matchedAlone, frontTokens]
        rfl
      · rw [Cursor.tokens_of_firstMatch? matched, append,
          map_append_map_append, byteLength_append, Nat.add_assoc]

/-- A text with which no piece in front of it goes on. -/
def Detached (text : List Char) : Prop :=
  ∀ (lexicalClass : LexicalClass) (found : List Char),
    StopsRun (lexicalClass.goesOn found) text

theorem detached_quote (text : List Char) :
    Detached ('"' :: text) := by
  rintro lexicalClass found character ⟨⟩
  cases lexicalClass with
  | blank => rfl
  | token kind =>
      rw [Bool.eq_false_iff]
      intro goesOn
      rcases LexicalClass.goesOn_token goesOn with isEquals | inWord
      · exact absurd isEquals (by decide)
      · exact absurd inWord (by decide)

theorem RuleTable.firstMatch?_append
    {text later : List Char}
    {lexicalClass : LexicalClass}
    {scan : Scan}
    (matched : standard.firstMatch? text = some (lexicalClass, scan))
    (stops : StopsRun (lexicalClass.goesOn scan.found) later) :
    standard.firstMatch? (text ++ later) =
      some (lexicalClass, ⟨scan.found, scan.rest ++ later⟩) := by
  obtain ⟨isPiece, stopsInText, rfl⟩ := firstMatch?_standard_iff.mp matched
  rw [List.append_assoc]
  exact firstMatch?_piece isPiece (stopsInText.append stops)

namespace Cursor

/-- A text that can be divided up to its end is divided so in front of another
text with which no piece goes on, by induction along its pieces. -/
theorem dividesBefore_of_tokens
    {offset : Nat}
    {text later : List Char}
    {front : List Token}
    (frontTokens : tokens .standard ⟨offset, text⟩ = .ok front)
    (detached : Detached later) :
    DividesBefore later text := by
  induction text using RuleTable.textInduction .standard
      generalizing offset front with
  | stuck text matchless =>
      have stuck : tokens .standard ⟨offset, text⟩ =
          ending ⟨offset, text⟩ [] :=
        tokens_of_stuck matchless
      obtain ⟨atEnd, -⟩ :=
        ending_eq_ok_iff.mp (stuck.symm.trans frontTokens)
      obtain rfl : text = [] := atEnd
      exact .nil
  | divided text lexicalClass scan matched hypothesis =>
      have matchedAppend := RuleTable.firstMatch?_append matched
        (detached lexicalClass scan.found)
      obtain ⟨back, backTokens, -⟩ := map_eq_ok_iff.mp
        ((tokens_of_firstMatch? matched offset).symm.trans frontTokens)
      have append := (RuleTable.divides_of_firstMatch? matched).append
      rw [← append] at matchedAppend ⊢
      exact .piece matchedAppend (hypothesis backTokens)

/-- A text that can be divided up to its end keeps its tokens in front of another
text with which no piece goes on. -/
theorem tokens_append
    {offset : Nat}
    {text later : List Char}
    {front : List Token}
    (frontTokens : tokens .standard ⟨offset, text⟩ = .ok front)
    (detached : Detached later) :
    tokens .standard ⟨offset, text ++ later⟩ =
      (tokens .standard ⟨offset + byteLength text, later⟩).map (front ++ ·) := by
  obtain ⟨sameFront, sameTokens, append⟩ :=
    (dividesBefore_of_tokens frontTokens detached).tokens offset
  rw [frontTokens, Except.ok.injEq] at sameTokens
  rw [sameTokens, append]

end Cursor
end FilterLang
