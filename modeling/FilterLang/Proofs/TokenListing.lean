import FilterLang.CommandLine.Run
import FilterLang.Proofs.Literals
import Mathlib.Data.List.Forall2

/-!
# The listing of tokens

A written token is read from the left: the capital letters name its kind, its
text closes its own quotes, and its place stands between braces. Nothing in a
text can imitate the end of it, and no line breaks are left in it, so a listing
has one line for each token and tells tokens apart by all but where they stop.
-/

namespace FilterLang

/-! ## The parts of a written token -/

/-- Whatever stands behind them, different texts are quoted differently. -/
theorem Quoted.encode_append_inj
    {hidden : Char → Bool}
    {text other : String}
    {rest otherRest : List Char}
    (same : encode hidden text.toList ++ rest =
      encode hidden other.toList ++ otherRest) :
    text = other ∧ rest = otherRest := by
  have read
      (text : String)
      (rest : List Char) :
      Canonical.readText (.start (encode hidden text.toList ++ rest)) =
        .ok (text, ⟨1 + (encode hidden text.toList).length, rest⟩) :=
    Canonical.readText_eq_ok_iff.mpr
      ⟨_, Canonical.writesText_encode hidden text, rfl, rfl⟩
  have readSame := read text rest
  rw [same, read other otherRest, Except.ok.injEq, Prod.mk.injEq] at readSame
  exact ⟨readSame.1.symm, (congrArg Canonical.Place.rest readSame.2).symm⟩

/-- The capital letters in front of a bracket are the name of a kind. -/
theorem TokenKind.eq_of_append
    {kind other : TokenKind}
    {rest otherRest : List Char}
    (same : kind.name.toList ++ '[' :: rest =
      other.name.toList ++ '[' :: otherRest) :
    kind = other ∧ rest = otherRest := by
  have named
      (kind : TokenKind)
      (rest : List Char) :
      (kind.name.toList ++ '[' :: rest).takeWhile Char.isUpper =
          kind.name.toList ∧
        (kind.name.toList ++ '[' :: rest).dropWhile Char.isUpper =
          '[' :: rest :=
    longestRun_iff.mpr ⟨rfl, fun _ => isUpper_of_mem_name,
      by simp [StopsRun]⟩
  obtain ⟨name_eq, rest_eq⟩ := named kind rest
  rw [same, (named other otherRest).1, String.toList_inj] at name_eq
  rw [same, (named other otherRest).2, List.cons.injEq] at rest_eq
  have kind_eq := ofName?_name kind
  rw [← name_eq, ofName?_name, Option.some.injEq] at kind_eq
  exact ⟨kind_eq.symm, rest_eq.2.symm⟩

/-- A number is read back from its decimal digits. -/
theorem eq_of_toList_repr
    {number other : Nat}
    (same : number.repr.toList = other.repr.toList) :
    number = other := by
  have readBack (number : Nat) :
      Nat.ofDigitChars 10 number.repr.toList 0 = number := by
    rw [Nat.toList_repr]
    exact Nat.ofDigitChars_toDigits (by decide) (by decide)
  calc
    number = Nat.ofDigitChars 10 number.repr.toList 0 := (readBack number).symm
    _ = Nat.ofDigitChars 10 other.repr.toList 0 := by rw [same]
    _ = other := readBack other

/-! ## Written tokens -/

namespace Token

theorem toList_display (token : Token) :
    token.display.toList =
      token.kind.name.toList ++ '[' ::
        (Quoted.encode Quoted.isHidden token.text.toList ++
          ([']', '{'] ++ token.position.repr.toList ++ ['}'])) := by
  simp [display, Quoted.quote]

/-- A line break is in no written token. -/
theorem notMem_display
    {mark : Char}
    (isLineBreak : mark ∈ ['\n', '\r'])
    (token : Token) :
    mark ∉ token.display.toList := by
  have plain :
      ¬mark.isUpper ∧ ¬mark.isDigit ∧ mark ∉ ['[', ']', '{', '}'] ∧
        mark ∈ ['\x00', '\t', '\n', '\r'] := by
    rcases List.mem_pair.mp isLineBreak with rfl | rfl <;> decide
  obtain ⟨notUpper, notDigit, noFrame, escaped⟩ := plain
  have noName := token.kind.notMem_name notUpper
  have noText := Quoted.notMem_encode escaped Quoted.isHidden token.text.toList
  have noPlace : mark ∉ Nat.toDigits 10 token.position := fun member =>
    notDigit (Nat.isDigit_of_mem_toDigits (by decide) (by decide) member)
  simp only [List.mem_cons, List.not_mem_nil, or_false, not_or] at noFrame
  simp [toList_display, noName, noText, noPlace, noFrame]

/-- Tokens are written alike when they differ in no more than where they
stop. -/
theorem display_eq_iff {token other : Token} :
    token.display = other.display ↔
      token.kind = other.kind ∧ token.text = other.text ∧
        token.span.start = other.span.start := by
  constructor
  · intro same
    rw [← String.toList_inj, toList_display, toList_display] at same
    obtain ⟨kind_eq, behindKind⟩ := TokenKind.eq_of_append same
    obtain ⟨text_eq, behindText⟩ := Quoted.encode_append_inj behindKind
    have place_eq : token.position.repr.toList = other.position.repr.toList :=
      List.append_cancel_left (List.append_cancel_right behindText)
    exact ⟨kind_eq, text_eq, Nat.succ.inj (eq_of_toList_repr place_eq)⟩
  · rintro ⟨kind_eq, text_eq, start_eq⟩
    rw [display, display, position, position, kind_eq, text_eq, start_eq]

end Token

/-! ## Listings -/

theorem CommandLine.Report.toList_unlines (lines : List String) :
    (unlines lines).toList =
      ['\n'].intercalate ((lines ++ [""]).map String.toList) := by
  induction lines with
  | nil => rfl
  | cons line lines hypothesis =>
      have printed :
          (unlines (line :: lines)).toList =
            line.toList ++ ['\n'] ++ (unlines lines).toList := by
        simp [unlines]
      rw [printed, hypothesis]
      cases lines with
      | nil => simp
      | cons next lines => simp

/-- Printed lines without line feeds are what the line feeds divide the print
into, in front of the nothing behind the last one. -/
theorem CommandLine.Report.splitOn_unlines
    {lines : List String}
    (noLineFeed : ∀ line ∈ lines, '\n' ∉ line.toList) :
    (unlines lines).toList.splitOn '\n' =
      (lines ++ [""]).map String.toList := by
  rw [toList_unlines]
  refine List.splitOn_intercalate '\n' ?_ (by simp)
  intro characters member
  obtain ⟨line, inLines, rfl⟩ := List.mem_map.mp member
  rcases List.mem_append.mp inLines with printed | last
  · exact noLineFeed line printed
  · rw [List.mem_singleton.mp last]
    simp

theorem listTokens_eq_ok_iff
    {source : String}
    {lines : List String} :
    listTokens source = .ok lines ↔
      ∃ tokens, tokenize source = .ok tokens ∧
        tokens.map Token.display = lines := by
  simp only [listTokens, bind_eq_ok_iff, mapError_eq_ok_iff, pure, Except.pure,
    Except.ok.injEq]

/-- A command that lists the tokens of a text prints the lines of the listing
and nothing else. -/
theorem CommandLine.Invocation.run_tokens
    {invocation : Invocation}
    {input : Option ByteArray}
    {source : String}
    {lines : List String}
    (isListing : invocation.command = .tokens)
    (given : invocation.source input = .ok (some source))
    (listed : listTokens source = .ok lines) :
    invocation.run input = .success lines := by
  have lines_eq : invocation.lines (some source) = .ok lines := by
    rw [Invocation.lines, isListing]
    exact listed
  rw [run, given, ok_bind, lines_eq]

/-- The listing of a text has one line for each token, and no line breaks within
a line. A command that prints it prints just these lines, so the line feeds of
the print divide it into them. Where the listings of two texts are the same,
their tokens agree in kind, text and start. -/
theorem listing_tells_tokens
    {source : String}
    {tokens : List Token}
    (tokenized : tokenize source = .ok tokens) :
    ∃ lines, listTokens source = .ok lines ∧
      lines.length = tokens.length ∧
      (∀ line ∈ lines, '\n' ∉ line.toList ∧ '\r' ∉ line.toList) ∧
      (∀ (invocation : CommandLine.Invocation) (input : Option ByteArray),
        invocation.command = .tokens →
        invocation.source input = .ok (some source) →
        ∃ printed, invocation.run input = ⟨0, printed, none⟩ ∧
          printed.toList.splitOn '\n' = (lines ++ [""]).map String.toList) ∧
      ∀ (other : String) (otherTokens : List Token),
        tokenize other = .ok otherTokens →
        listTokens other = .ok lines →
        List.Forall₂ (fun token otherToken =>
          token.kind = otherToken.kind ∧ token.text = otherToken.text ∧
            token.span.start = otherToken.span.start) tokens otherTokens := by
  have listed : listTokens source = .ok (tokens.map Token.display) :=
    listTokens_eq_ok_iff.mpr ⟨tokens, tokenized, rfl⟩
  have noLineBreak : ∀ line ∈ tokens.map Token.display,
      '\n' ∉ line.toList ∧ '\r' ∉ line.toList := by
    intro line member
    obtain ⟨token, -, rfl⟩ := List.mem_map.mp member
    exact ⟨token.notMem_display (by decide), token.notMem_display (by decide)⟩
  refine ⟨tokens.map Token.display, listed, List.length_map _, noLineBreak, ?_,
    ?_⟩
  · intro invocation input isListing given
    refine ⟨_, CommandLine.Invocation.run_tokens isListing given listed, ?_⟩
    exact CommandLine.Report.splitOn_unlines fun line member =>
      (noLineBreak line member).1
  · intro other otherTokens otherTokenized otherListed
    obtain ⟨_, tokenizedAgain, same⟩ := listTokens_eq_ok_iff.mp otherListed
    rw [otherTokenized, Except.ok.injEq] at tokenizedAgain
    subst tokenizedAgain
    rw [eq_comm, ← List.forall₂_eq_eq_eq, List.forall₂_map_left_iff,
      List.forall₂_map_right_iff] at same
    exact same.imp fun _ _ => Token.display_eq_iff.mp

/-- A text that looks like the end of a line, and breaks the line. -/
theorem listing_tells_tokens_of_framed_text :
    tokenize "\"]\x7b1\x7d\n[\"" =
        .ok [⟨.literal, "]\x7b1\x7d\n[", ⟨0, 8⟩⟩] ∧
      ∃ lines, listTokens "\"]\x7b1\x7d\n[\"" = .ok lines ∧
        lines.length = 1 ∧
        ∀ line ∈ lines, '\n' ∉ line.toList ∧ '\r' ∉ line.toList := by
  have tokenized :
      tokenize "\"]\x7b1\x7d\n[\"" =
        .ok [⟨.literal, "]\x7b1\x7d\n[", ⟨0, 8⟩⟩] := by
    decide +kernel
  obtain ⟨lines, listed, length_eq, noLineBreak, -⟩ :=
    listing_tells_tokens tokenized
  exact ⟨tokenized, lines, listed, length_eq, noLineBreak⟩

end FilterLang
