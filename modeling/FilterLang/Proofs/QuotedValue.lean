import FilterLang.Proofs.Concatenation
import FilterLang.Proofs.Correspondence

/-!
# Quoted values do not change the structure

A value without double quotes, written between double quotes, is one token,
whatever else it contains. So two such values, written in the same place, lead to
the same expression but for one leaf, or to the same error. The place is any at
which the text in front of the value has been divided to its end.
-/

namespace FilterLang

variable {before value other after : String} {front : List Token}

/-- A source text with a value between double quotes in it. -/
def quotedIn (before value after : String) : String :=
  before ++ "\"" ++ value ++ "\"" ++ after

/-- A value between double quotes. -/
def quotedText (value : String) : List Char :=
  '"' :: value.toList ++ ['"']

theorem toList_quotedIn (before value after : String) :
    (quotedIn before value after).toList =
      before.toList ++ (quotedText value ++ after.toList) := by
  simp [quotedIn, quotedText]

/-- The token of a quoted value that has `offset` bytes before it. -/
def quotedToken
    (offset : Nat)
    (value : String) : Token :=
  ⟨.literal, value, ⟨offset, offset + byteLength (quotedText value)⟩⟩

theorem tokens_quoted
    (noQuote : '"' ∉ value.toList)
    (offset : Nat)
    (later : List Char) :
    Cursor.tokens .standard ⟨offset, quotedText value ++ later⟩ =
      (Cursor.tokens .standard
        ⟨offset + byteLength (quotedText value), later⟩).map
          ([quotedToken offset value] ++ ·) := by
  have matched :
      RuleTable.standard.firstMatch? (quotedText value ++ later) =
        some (.token .literal, ⟨quotedText value, later⟩) :=
    RuleTable.firstMatch?_piece (Or.inr (Or.inl ⟨_, noQuote, rfl⟩))
      (stopsRun_false _)
  have token_eq :
      Lexeme.token? ⟨.token .literal, quotedText value,
          ⟨offset, offset + byteLength (quotedText value)⟩⟩ =
        some (quotedToken offset value) := by
    simp [Lexeme.token?, Lexeme.tokenText, Lexeme.withoutQuotes, quotedText,
      quotedToken]
  rw [Cursor.tokens_of_firstMatch? matched, token_eq]
  rfl

/-- A quoted value is a token of its own between the tokens in front of it and
those behind it. -/
theorem tokenize_quotedIn
    (divided : tokenize before = .ok front)
    (noQuote : '"' ∉ value.toList)
    (after : String) :
    tokenize (quotedIn before value after) =
      (shiftTokens
          (byteLength before.toList + byteLength (quotedText value))
          (tokenize after)).map
        (front ++ [quotedToken (byteLength before.toList) value] ++ ·) := by
  have detached : Detached (quotedText value ++ after.toList) :=
    detached_quote _
  rw [tokenize, tokenizeWith, Cursor.start, toList_quotedIn,
    Cursor.tokens_append divided detached, Nat.zero_add,
    tokens_quoted noQuote, map_append_map_append]
  exact congrArg _ (Cursor.tokens_shift .standard _ 0 after.toList)

/-- Two texts have the same rest where they cannot be divided further. -/
def SameRemainder (error other : LexError) : Prop :=
  error.remainder = other.remainder

/-- Two tokens have the same text unless they are literals. -/
def SameTextUnlessLiteral (token other : Token) : Prop :=
  token.kind ≠ .literal → token.text = other.text

/-- An expression with one of its leaves, a literal, replaced by another
literal. -/
structure Expr.LiteralReplaced
    (value other : String)
    (tree replaced : Expr) : Prop where
  sameShape : tree.SameShape replaced
  leaf : ∃ index, tree.leaves[index]? = some (.literal value) ∧
    replaced.leaves = tree.leaves.set index (.literal other)

theorem tokenize_quotedIn_corresponds
    (divided : tokenize before = .ok front)
    (noQuote : '"' ∉ value.toList)
    (otherNoQuote : '"' ∉ other.toList)
    (after : String) :
    OutcomesCorrespond SameRemainder
      (List.Forall₂ (Token.Corresponds SameTextUnlessLiteral))
      (tokenize (quotedIn before value after))
      (tokenize (quotedIn before other after)) := by
  rw [tokenize_quotedIn divided noQuote,
    tokenize_quotedIn divided otherNoQuote]
  cases tokenize after with
  | error error => exact .error rfl
  | ok back =>
      refine .ok (List.rel_append (List.rel_append ?_ ?_) ?_)
      · exact List.forall₂_same.mpr fun token _ => ⟨rfl, fun _ => rfl⟩
      · exact .cons ⟨rfl, fun notLiteral => absurd rfl notLiteral⟩ .nil
      · apply List.forall₂_map_left_iff.mpr
        apply List.forall₂_map_right_iff.mpr
        exact List.forall₂_same.mpr fun token _ => ⟨rfl, fun _ => rfl⟩

/-- Leaves do not depend on where their tokens stand. -/
theorem filterMap_leaf?_shift
    (bytes : Nat)
    (tokens : List Token) :
    (tokens.map (Token.shift bytes)).filterMap Token.leaf? =
      tokens.filterMap Token.leaf? := by
  rw [List.filterMap_map]
  rfl

/-- The quoted value is a leaf between those of the text in front of it and those
of the text behind it. -/
theorem leaves_quotedIn
    {tokens : List Token}
    (divided : tokenize before = .ok front)
    (noQuote : '"' ∉ value.toList)
    (allDivided : tokenize (quotedIn before value after) = .ok tokens) :
    ∃ back, tokenize after = .ok back ∧
      tokens.filterMap Token.leaf? =
        front.filterMap Token.leaf? ++
          .literal value :: back.filterMap Token.leaf? := by
  rw [tokenize_quotedIn divided noQuote, map_eq_ok_iff] at allDivided
  obtain ⟨shifted, shifted_eq, rfl⟩ := allDivided
  rw [shiftTokens, mapError_eq_ok_iff, map_eq_ok_iff] at shifted_eq
  obtain ⟨back, backDivided, rfl⟩ := shifted_eq
  refine ⟨back, backDivided, ?_⟩
  rw [List.filterMap_append, List.filterMap_append, filterMap_leaf?_shift,
    List.append_assoc]
  rfl

/-- Of two values without double quotes, quoted in one place, each can replace
the other: either both texts compile, to expressions that differ in that one
literal, or both fail at the same stage, with the same rest of the text that
cannot be divided, or with parse errors that differ in places at most. -/
theorem quoted_value_keeps_structure
    (divided : tokenize before = .ok front)
    (noQuote : '"' ∉ value.toList)
    (otherNoQuote : '"' ∉ other.toList)
    (after : String)
    (maxDepth : Nat) :
    OutcomesCorrespond
      (CompileError.Corresponds SameRemainder SameTextUnlessLiteral)
      (Expr.LiteralReplaced value other)
      (compile maxDepth (quotedIn before value after))
      (compile maxDepth (quotedIn before other after)) := by
  have compiled := compile_corresponds
    (tokenize_quotedIn_corresponds divided noQuote otherNoQuote after) maxDepth
  refine compiled.imp_of_ok ?_
  rintro tree replaced - -
    ⟨sameShape, tokens, others, tokens_eq, others_eq, leaves_eq, replaced_eq⟩
  obtain ⟨back, back_eq, tokenLeaves⟩ :=
    leaves_quotedIn divided noQuote tokens_eq
  obtain ⟨otherBack, otherBack_eq, otherLeaves⟩ :=
    leaves_quotedIn divided otherNoQuote others_eq
  obtain rfl : back = otherBack :=
    Except.ok.inj (back_eq.symm.trans otherBack_eq)
  refine ⟨sameShape, (front.filterMap Token.leaf?).length, ?_, ?_⟩
  · simp [leaves_eq, tokenLeaves]
  · simp [leaves_eq, replaced_eq, tokenLeaves, otherLeaves]

/-- Behind `a=`, a quoted value may close parentheses and join conditions as it
likes. -/
theorem quoted_operators_keep_structure :
    tokenize "a=" =
        .ok [⟨.identifier, "a", ⟨0, 1⟩⟩, ⟨.comparison .equal, "=", ⟨1, 2⟩⟩] ∧
      '"' ∉ "1) OR (b".toList ∧ '"' ∉ "1".toList ∧
      OutcomesCorrespond
        (CompileError.Corresponds SameRemainder SameTextUnlessLiteral)
        (Expr.LiteralReplaced "1) OR (b" "1")
        (compile 1 (quotedIn "a=" "1) OR (b" ""))
        (compile 1 (quotedIn "a=" "1" "")) := by
  have name : RuleTable.standard.firstMatch? ['a', '='] =
      some (.token .identifier, ⟨['a'], ['=']⟩) := by decide
  have operator : RuleTable.standard.firstMatch? ['='] =
      some (.token (.comparison .equal), ⟨['='], []⟩) := by decide
  have divided : tokenize "a=" =
      .ok [⟨.identifier, "a", ⟨0, 1⟩⟩, ⟨.comparison .equal, "=", ⟨1, 2⟩⟩] := by
    change Cursor.tokens .standard ⟨0, ['a', '=']⟩ = _
    rw [Cursor.tokens_of_firstMatch? name,
      Cursor.tokens_of_firstMatch? operator, Cursor.tokens_of_stuck rfl]
    rfl
  exact ⟨divided, by decide, by decide,
    quoted_value_keeps_structure divided (by decide) (by decide) "" 1⟩

end FilterLang
