import FilterLang.Expr.Json
import FilterLang.Proofs.Literals

/-!
# Expressions are read back from JSON

A document is read through its literals alone. The keys of an object stand in
alphabetical order, so the operands of an operator come before its kind, and the
literals of a document are a program for a stack: a leaf is pushed, an operator
takes its operands off.
-/

namespace FilterLang

/-! ## What literals hold -/

/-- What the literals of a text hold, each up to its closing quote. -/
def ScanState.bodies : ScanState → List Char → List (List Char)
  | _, [] => []
  | state, character :: rest =>
      if state = outside then
        bodies (state.step character) rest
      else if state = inside ∧ character = '"' then
        [] :: bodies (state.step character) rest
      else
        (bodies (state.step character) rest).modifyHead (character :: ·)

/-- What the literals of a text hold, from between literals. -/
def literalBodies (text : List Char) : List (List Char) :=
  ScanState.outside.bodies text

theorem literalBodies_cons
    {character : Char}
    (notQuote : character ≠ '"')
    (rest : List Char) :
    literalBodies (character :: rest) = literalBodies rest := by
  simp [literalBodies, ScanState.bodies, ScanState.step, notQuote]

theorem IsLiteralBody.bodies_inside
    {body : List Char}
    (isBody : IsLiteralBody body)
    (rest : List Char) :
    ScanState.inside.bodies (body ++ '"' :: rest) =
      body :: literalBodies rest := by
  induction isBody with
  | nil => simp [literalBodies, ScanState.bodies, ScanState.step]
  | plain notQuote notBackslash _ hypothesis =>
      simp [ScanState.bodies, ScanState.step, notQuote, notBackslash,
        hypothesis]
  | escape character _ hypothesis =>
      simp [ScanState.bodies, ScanState.step, hypothesis]

theorem IsLiteralBody.literalBodies_append
    {body : List Char}
    (isBody : IsLiteralBody body)
    (rest : List Char) :
    literalBodies ('"' :: body ++ ['"'] ++ rest) =
      body :: literalBodies rest := by
  rw [← isBody.bodies_inside rest]
  simp [literalBodies, ScanState.bodies, ScanState.step]

theorem ScanState.bodies_erase
    (erased : Char → Bool)
    (state : ScanState)
    (text : List Char) :
    state.bodies (((state.scan text).filter fun scanned =>
      scanned.inLiteral || !erased scanned.character).map
        Scanned.character) = state.bodies text := by
  -- On the text; a scan stays between literals at what is erased.
  induction text generalizing state with
  | nil => rfl
  | cons character later hypothesis =>
      cases state with
      | outside =>
          by_cases isQuote : character = '"'
          · subst isQuote
            simp [scan, bodies, hypothesis]
          · cases isErased : erased character with
            | true => simp [scan, bodies, step, isQuote, isErased, hypothesis]
            | false => simp [scan, bodies, isErased, hypothesis]
      | inside => simp [scan, bodies, hypothesis]
      | escaped => simp [scan, bodies, hypothesis]

/-- Erasing outside literals leaves what the literals hold. -/
theorem literalBodies_eraseOutside
    (erased : Char → Bool)
    (text : List Char) :
    literalBodies (eraseOutside erased text) = literalBodies text :=
  ScanState.outside.bodies_erase erased text

/-! ## Strings -/

namespace Json

/-- The letters that name a character behind a backslash. -/
def escapeLetters : List (Char × Char) :=
  [('"', '"'), ('\\', '\\'), ('/', '/'), ('b', '\x08'), ('f', '\x0c'),
    ('n', '\n'), ('r', '\r'), ('t', '\t')]

/-- The text of a JSON string, from what stands between its quotes. -/
def unescape? : List Char → Option (List Char)
  | [] => some []
  | ['\\'] => none
  | '\\' :: 'u' :: first :: second :: third :: fourth :: rest =>
      match Numeral.value? 16 [first, second, third, fourth] with
      | none => none
      | some code =>
          if code.isValidChar then
            (unescape? rest).map (Char.ofNat code :: ·)
          else
            none
  | '\\' :: letter :: rest =>
      match escapeLetters.lookup letter with
      | none => none
      | some character => (unescape? rest).map (character :: ·)
  | character :: rest => (unescape? rest).map (character :: ·)

theorem unescape?_codeUnit
    {first second third fourth character : Char}
    (value_eq : Numeral.value? 16 [first, second, third, fourth] =
      some character.toNat)
    (rest : List Char) :
    unescape? ('\\' :: 'u' :: first :: second :: third :: fourth :: rest) =
      (unescape? rest).map (character :: ·) := by
  have valid : character.toNat.isValidChar := character.valid
  simp only [unescape?, value_eq, if_pos valid, Char.ofNat_toNat]

theorem unescape?_letter
    {letter character : Char}
    (notUnicode : letter ≠ 'u')
    (named : escapeLetters.lookup letter = some character)
    (rest : List Char) :
    unescape? ('\\' :: letter :: rest) =
      (unescape? rest).map (character :: ·) := by
  simp [unescape?, notUnicode, named]

theorem unescape?_plain
    {character : Char}
    (notBackslash : character ≠ '\\')
    (rest : List Char) :
    unescape? (character :: rest) =
      (unescape? rest).map (character :: ·) := by
  simp [unescape?, notBackslash]

/-- Zeros may stand in front of the digits of a number. -/
theorem value?_zeros_append
    (zeros number : Nat) :
    Numeral.value? 16 (List.replicate zeros '0' ++ Numeral.hexDigits number) =
      some number := by
  have written := Canonical.writesNumber_iff.mp
    (Canonical.writesNumber_hexDigits number)
  obtain ⟨nonempty, valued⟩ := Numeral.value?_eq_some_iff.mp written
  refine Numeral.value?_eq_some_iff.mpr
    ⟨List.append_ne_nil_of_right_ne_nil _ nonempty, ?_⟩
  induction zeros with
  | zero => exact valued
  | succ zeros hypothesis =>
      rw [List.replicate_succ, List.cons_append, Numeral.valueFrom?]
      exact hypothesis

theorem unescape?_escape
    (character : Char)
    (rest : List Char) :
    unescape? (escape character ++ rest) =
      (unescape? rest).map (character :: ·) := by
  unfold escape
  split
  · exact unescape?_letter (by decide) (by decide) rest
  · exact unescape?_letter (by decide) (by decide) rest
  · exact unescape?_letter (by decide) (by decide) rest
  · exact unescape?_letter (by decide) (by decide) rest
  · exact unescape?_letter (by decide) (by decide) rest
  · exact unescape?_letter (by decide) (by decide) rest
  · exact unescape?_letter (by decide) (by decide) rest
  · rename_i notBackslash _ _ _ _ _
    split
    · rename_i small
      have digits_eq :
          Numeral.hexDigits character.toNat = [character.toNat.digitChar] :=
        Nat.toDigits_of_lt_base small
      have value_eq := value?_zeros_append 3 character.toNat
      rw [digits_eq] at value_eq ⊢
      exact unescape?_codeUnit value_eq rest
    · split
      · rename_i large small
        have digits_eq :
            Numeral.hexDigits character.toNat =
              [(character.toNat / 16).digitChar,
                (character.toNat % 16).digitChar] := by
          rw [Numeral.hexDigits, Nat.toDigits_eq_if (by decide), if_neg large,
            Nat.toDigits_of_lt_base (by omega)]
          rfl
        have value_eq := value?_zeros_append 2 character.toNat
        rw [digits_eq] at value_eq ⊢
        exact unescape?_codeUnit value_eq rest
      · exact unescape?_plain notBackslash rest

theorem unescape?_flatMap_escape (text : List Char) :
    unescape? (text.flatMap escape) = some text := by
  induction text with
  | nil => rfl
  | cons character later hypothesis =>
      rw [List.flatMap_cons, unescape?_escape, hypothesis]
      rfl

theorem mapM_unescape? (texts : List String) :
    (texts.map (·.toList.flatMap escape)).mapM unescape? =
      some (texts.map String.toList) := by
  induction texts with
  | nil => rfl
  | cons text later hypothesis =>
      simp [List.mapM_cons, unescape?_flatMap_escape, hypothesis]

theorem isLiteralBody_escape (character : Char) :
    IsLiteralBody (escape character) := by
  have digits :=
    (Canonical.writesNumber_hexDigits character.toNat).isLiteralBody
  unfold escape
  split
  · exact .escape _ .nil
  · exact .escape _ .nil
  · exact .escape _ .nil
  · exact .escape _ .nil
  · exact .escape _ .nil
  · exact .escape _ .nil
  · exact .escape _ .nil
  · rename_i notQuote notBackslash _ _ _ _ _
    split
    · exact .append (.escape _ (.of_plain (by decide) (by decide))) digits
    · split
      · exact .append (.escape _ (.of_plain (by decide) (by decide))) digits
      · exact .plain notQuote notBackslash .nil

theorem literalBodies_string_append
    (text rest : List Char) :
    literalBodies (string text ++ rest) =
      text.flatMap escape :: literalBodies rest := by
  have isBody : IsLiteralBody (text.flatMap escape) :=
    .flatMap isLiteralBody_escape text
  exact isBody.literalBodies_append rest

end Json

/-! ## Documents -/

/-- What a reader of documents takes the next literal for. -/
inductive JsonLiteral
  /-- A key of an object. -/
  | key
  /-- The kind of an expression. -/
  | kind
  /-- The key of the text of a leaf. -/
  | valueKey (leaf : String → Expr)
  /-- The text of a leaf. -/
  | value (leaf : String → Expr)

/-- A reader of documents between two literals. -/
structure JsonReader where
  /-- What the next literal is. -/
  next : JsonLiteral
  /-- The expressions that have been read, the last one first. -/
  stack : List Expr

namespace JsonReader

/-- The reader at the start of a document. -/
def start : JsonReader :=
  ⟨.key, []⟩

/-- Take the text of a literal. -/
def take (reader : JsonReader) (text : String) : Option JsonReader :=
  match reader.next with
  | .key =>
      if text = "children" then
        some reader
      else if text = "kind" then
        some { reader with next := .kind }
      else
        none
  | .kind =>
      match TokenKind.ofName? text, reader.stack with
      | some .identifier, stack => some ⟨.valueKey .identifier, stack⟩
      | some .literal, stack => some ⟨.valueKey .literal, stack⟩
      | some .not, child :: stack => some ⟨.key, .not child :: stack⟩
      | some (.operator (.binary op)), right :: left :: stack =>
          some ⟨.key, .binary op left right :: stack⟩
      | _, _ => none
  | .valueKey leaf =>
      if text = "value" then
        some { reader with next := .value leaf }
      else
        none
  | .value leaf => some ⟨.key, leaf text :: reader.stack⟩

/-- The expression that has been read, if it is the only one. -/
def result? (reader : JsonReader) : Option Expr :=
  match reader.next, reader.stack with
  | .key, [tree] => some tree
  | _, _ => none

end JsonReader

namespace Expr

/-- The expression of a JSON document, told by its literals. -/
def ofJson? (document : String) : Option Expr := do
  let texts ← (literalBodies document.toList).mapM Json.unescape?
  let reader ← (texts.map String.ofList).foldlM JsonReader.take .start
  reader.result?

/-- The texts of the literals of a document. -/
def jsonTexts : Expr → List String
  | identifier name => ["kind", TokenKind.identifier.name, "value", name]
  | literal value => ["kind", TokenKind.literal.name, "value", value]
  | not child =>
      "children" :: child.jsonTexts ++ ["kind", TokenKind.not.name]
  | binary op left right =>
      "children" :: left.jsonTexts ++ right.jsonTexts ++
        ["kind", (TokenKind.operator (.binary op)).name]

theorem foldlM_take_jsonTexts
    (tree : Expr)
    (stack : List Expr) :
    tree.jsonTexts.foldlM JsonReader.take ⟨.key, stack⟩ =
      some ⟨.key, tree :: stack⟩ := by
  induction tree generalizing stack with
  | identifier name => rfl
  | literal value => rfl
  | not child hypothesis =>
      simp [jsonTexts, hypothesis, JsonReader.take, TokenKind.ofName?_name]
  | binary op left right leftHypothesis rightHypothesis =>
      simp [jsonTexts, leftHypothesis, rightHypothesis, JsonReader.take,
        TokenKind.ofName?_name]

/-- The literals of a part of a document have such texts. -/
def HoldsTexts
    (part : List Char)
    (texts : List String) : Prop :=
  ∀ rest, literalBodies (part ++ rest) =
    texts.map (·.toList.flatMap Json.escape) ++ literalBodies rest

theorem holdsTexts_separated
    {items : List (List Char)}
    {itemTexts : List (List String)}
    (level : Nat)
    (holds : List.Forall₂ HoldsTexts items itemTexts) :
    HoldsTexts (Json.separated .compact level items) itemTexts.flatten := by
  induction holds with
  | nil => exact fun rest => rfl
  | @cons item texts items itemTexts first later hypothesis =>
      intro rest
      cases later with
      | nil => simp [Json.separated, Json.newLine, first rest]
      | cons second others =>
          have remaining := hypothesis rest
          simp [Json.separated, Json.newLine, first _, literalBodies_cons,
            remaining]

theorem holdsTexts_array
    {items : List (List Char)}
    {itemTexts : List (List String)}
    (level : Nat)
    (holds : List.Forall₂ HoldsTexts items itemTexts) :
    HoldsTexts (Json.array .compact level items) itemTexts.flatten := by
  intro rest
  have separated := holdsTexts_separated (level + 1) holds (']' :: rest)
  rw [literalBodies_cons (by decide)] at separated
  cases holds with
  | nil => simp [Json.array, Json.enclosed, literalBodies_cons]
  | cons first later =>
      rw [← separated]
      simp [Json.array, Json.enclosed, Json.newLine, literalBodies_cons]

theorem holdsTexts_leafObject
    (level : Nat)
    (kind : TokenKind)
    (value : String) :
    HoldsTexts (leafObject .compact level kind value)
      ["kind", kind.name, "value", value] := by
  intro rest
  simp [leafObject, Json.object, Json.enclosed, Json.separated, Json.member,
    Json.newLine, literalBodies_cons, Json.literalBodies_string_append]

theorem holdsTexts_operatorObject
    {operands : List (List Char)}
    {operandTexts : List (List String)}
    (level : Nat)
    (kind : TokenKind)
    (holds : List.Forall₂ HoldsTexts operands operandTexts) :
    HoldsTexts (operatorObject .compact level kind operands)
      ("children" :: operandTexts.flatten ++ ["kind", kind.name]) := by
  intro rest
  have array := holdsTexts_array (level + 1) holds
  simp [operatorObject, Json.object, Json.enclosed, Json.separated,
    Json.member, Json.newLine, literalBodies_cons,
    Json.literalBodies_string_append, array _]

theorem holdsTexts_jsonAt
    (tree : Expr)
    (level : Nat) :
    HoldsTexts (tree.jsonAt .compact level) tree.jsonTexts := by
  induction tree generalizing level with
  | identifier name => exact holdsTexts_leafObject level .identifier name
  | literal value => exact holdsTexts_leafObject level .literal value
  | not child hypothesis =>
      have operands :
          List.Forall₂ HoldsTexts [child.jsonAt .compact (level + 2)]
            [child.jsonTexts] :=
        .cons (hypothesis (level + 2)) .nil
      simpa [jsonAt, jsonTexts] using
        holdsTexts_operatorObject level .not operands
  | binary op left right leftHypothesis rightHypothesis =>
      have operands :
          List.Forall₂ HoldsTexts
            [left.jsonAt .compact (level + 2),
              right.jsonAt .compact (level + 2)]
            [left.jsonTexts, right.jsonTexts] :=
        .cons (leftHypothesis (level + 2))
          (.cons (rightHypothesis (level + 2)) .nil)
      simpa [jsonAt, jsonTexts] using
        holdsTexts_operatorObject level (.operator (.binary op)) operands

theorem ofJson?_of_literalBodies
    {document : String}
    {tree : Expr}
    (bodies_eq : literalBodies document.toList =
      tree.jsonTexts.map (·.toList.flatMap Json.escape)) :
    ofJson? document = some tree := by
  have rebuilt := tree.foldlM_take_jsonTexts []
  rw [ofJson?, bodies_eq, Json.mapM_unescape?]
  simp [Function.comp_def, JsonReader.start, rebuilt, JsonReader.result?]

theorem literalBodies_json (tree : Expr) :
    literalBodies (tree.json .compact).toList =
      tree.jsonTexts.map (·.toList.flatMap Json.escape) := by
  have bodies_eq := tree.holdsTexts_jsonAt 0 []
  simpa [json, literalBodies, ScanState.bodies] using bodies_eq

end Expr
end FilterLang
