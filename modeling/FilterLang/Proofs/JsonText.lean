import FilterLang.Proofs.CheckDelivery
import FilterLang.Proofs.JsonReader

/-!
# JSON documents are faithful

A document set over several lines is the compact document with white space
outside its literals, so an expression is read back from both.
-/

namespace FilterLang

/-! ## White space -/

namespace Json

theorem isLiteral_string (text : List Char) : IsLiteral (string text) :=
  ⟨_, .flatMap isLiteralBody_escape text, rfl⟩

theorem erases_newLine
    (level : Nat)
    (style : Style) :
    Erases Char.isWhitespace (newLine level style) [] := by
  cases style with
  | compact => exact .nil
  | indented =>
      refine .blank ?_ ?_
      · simp [newLine]
      · simp [newLine]

theorem erases_separated
    {items lefts : List (List Char)}
    (style : Style)
    (level otherLevel : Nat)
    (erases : List.Forall₂ (Erases Char.isWhitespace) items lefts) :
    Erases Char.isWhitespace (separated style level items)
      (separated .compact otherLevel lefts) := by
  have blank := erases_newLine level style
  have comma : Erases Char.isWhitespace [','] [','] := .plain (by decide)
  induction erases with
  | nil => exact .nil
  | @cons item left items lefts first later hypothesis =>
      cases later with
      | nil => exact blank.append first
      | cons second others =>
          have front := (blank.append first).append comma
          simpa [separated, newLine] using front.append hypothesis

theorem erases_enclosed
    {items lefts : List (List Char)}
    {opening closing : Char}
    (style : Style)
    (level otherLevel : Nat)
    (openingErases : Erases Char.isWhitespace [opening] [opening])
    (closingErases : Erases Char.isWhitespace [closing] [closing])
    (erases : List.Forall₂ (Erases Char.isWhitespace) items lefts) :
    Erases Char.isWhitespace (enclosed style level opening closing items)
      (enclosed .compact otherLevel opening closing lefts) := by
  have blank := erases_newLine level style
  have inside := erases_separated style (level + 1) (otherLevel + 1) erases
  cases erases with
  | nil => exact openingErases.append closingErases
  | cons first later =>
      have whole :=
        ((openingErases.append inside).append blank).append closingErases
      simpa [enclosed, newLine] using whole

theorem erases_member
    {value left : List Char}
    (style : Style)
    (key : String)
    (erases : Erases Char.isWhitespace value left) :
    Erases Char.isWhitespace (member style key value)
      (member .compact key left) := by
  have keyErases :
      Erases Char.isWhitespace (string key.toList) (string key.toList) :=
    .literal (isLiteral_string key.toList)
  cases style with
  | compact =>
      have colon : Erases Char.isWhitespace [':'] [':'] := .plain (by decide)
      exact (keyErases.append colon).append erases
  | indented =>
      have colon : Erases Char.isWhitespace [':', ' '] [':'] :=
        .plain (by decide)
      exact (keyErases.append colon).append erases

theorem erases_object
    {members lefts : List (List Char)}
    (style : Style)
    (level otherLevel : Nat)
    (erases : List.Forall₂ (Erases Char.isWhitespace) members lefts) :
    Erases Char.isWhitespace (object style level members)
      (object .compact otherLevel lefts) :=
  erases_enclosed style level otherLevel (.plain (by decide))
    (.plain (by decide)) erases

theorem erases_array
    {items lefts : List (List Char)}
    (style : Style)
    (level otherLevel : Nat)
    (erases : List.Forall₂ (Erases Char.isWhitespace) items lefts) :
    Erases Char.isWhitespace (array style level items)
      (array .compact otherLevel lefts) :=
  erases_enclosed style level otherLevel (.plain (by decide))
    (.plain (by decide)) erases

theorem erases_stringMember
    (style : Style)
    (key : String)
    (text : List Char) :
    Erases Char.isWhitespace (member style key (string text))
      (member .compact key (string text)) :=
  erases_member style key (.literal (isLiteral_string text))

end Json

namespace Expr

theorem erases_leafObject
    (style : Json.Style)
    (level otherLevel : Nat)
    (kind : TokenKind)
    (value : String) :
    Erases Char.isWhitespace (leafObject style level kind value)
      (leafObject .compact otherLevel kind value) :=
  Json.erases_object style level otherLevel
    (.cons (Json.erases_stringMember style "kind" kind.name.toList)
      (.cons (Json.erases_stringMember style "value" value.toList) .nil))

theorem erases_operatorObject
    {operands lefts : List (List Char)}
    (style : Json.Style)
    (level otherLevel : Nat)
    (kind : TokenKind)
    (erases : List.Forall₂ (Erases Char.isWhitespace) operands lefts) :
    Erases Char.isWhitespace (operatorObject style level kind operands)
      (operatorObject .compact otherLevel kind lefts) := by
  have array :=
    Json.erases_array style (level + 1) (otherLevel + 1) erases
  exact Json.erases_object style level otherLevel
    (.cons (Json.erases_member style "children" array)
      (.cons (Json.erases_stringMember style "kind" kind.name.toList) .nil))

/-- White space aside, a document is the same in every style and at every
level. -/
theorem erases_jsonAt
    (style : Json.Style)
    (level otherLevel : Nat)
    (tree : Expr) :
    Erases Char.isWhitespace (tree.jsonAt style level)
      (tree.jsonAt .compact otherLevel) := by
  induction tree generalizing level otherLevel with
  | identifier name =>
      exact erases_leafObject style level otherLevel .identifier name
  | literal value =>
      exact erases_leafObject style level otherLevel .literal value
  | not child hypothesis =>
      exact erases_operatorObject style level otherLevel .not
        (.cons (hypothesis _ _) .nil)
  | binary op left right leftHypothesis rightHypothesis =>
      exact erases_operatorObject style level otherLevel _
        (.cons (leftHypothesis _ _) (.cons (rightHypothesis _ _) .nil))

theorem eraseOutside_json
    (style : Json.Style)
    (tree : Expr) :
    eraseOutside Char.isWhitespace (tree.json style).toList =
      (tree.json .compact).toList := by
  simp only [json, String.toList_ofList]
  exact (tree.erases_jsonAt style 0 0).erase_eq

theorem ofJson?_json
    (style : Json.Style)
    (tree : Expr) :
    ofJson? (tree.json style) = some tree := by
  apply ofJson?_of_literalBodies
  rw [← literalBodies_eraseOutside Char.isWhitespace, eraseOutside_json]
  exact tree.literalBodies_json

example :
    ofJson? ("\x7b\"children\":[" ++
      "\x7b\"kind\":\"ID\",\"value\":\"a,\\nb\"\x7d]," ++
      "\"kind\":\"NOT\"\x7d") = some (.not (.identifier "a,\nb")) := by
  decide

end Expr

/-- An expression is read back from its compact document, so different
expressions have different documents. What is printed as JSON is the compact
document once the white space outside its literals is erased, and it is what
checking prints of every source text that compiles. -/
theorem json_is_faithful :
    (∀ tree : Expr, Expr.ofJson? (tree.json .compact) = some tree) ∧
    (∀ left right : Expr,
      left.json .compact = right.json .compact ↔ left = right) ∧
    (∀ tree : Expr,
      eraseOutside Char.isWhitespace (OutputFormat.json.print tree).toList =
        (tree.json .compact).toList) ∧
    ∀ (maxDepth : Nat) (source : String) (tree : Expr),
      compile maxDepth source = .ok tree →
        Check.run ⟨some source, .json, false, maxDepth⟩ =
          .ok (.printed (OutputFormat.json.print tree)) := by
  refine ⟨Expr.ofJson?_json .compact, ?_, Expr.eraseOutside_json .indented, ?_⟩
  · intro left right
    constructor
    · intro same
      have leftRead := left.ofJson?_json .compact
      rw [same, right.ofJson?_json .compact, Option.some.injEq] at leftRead
      exact leftRead.symm
    · rintro rfl
      rfl
  · intro maxDepth source tree compiled
    exact Check.run_of_compile_ok compiled .json false

theorem json_is_faithful_of_braced_value :
    compile 1 "x = \"\x7b, \x7d\"" =
        .ok (.binary (.comparison .equal) (.identifier "x")
          (.literal "\x7b, \x7d")) ∧
      Check.run ⟨some "x = \"\x7b, \x7d\"", .json, false, 1⟩ =
        .ok (.printed (OutputFormat.json.print
          (.binary (.comparison .equal) (.identifier "x")
            (.literal "\x7b, \x7d")))) := by
  have compiled :
      compile 1 "x = \"\x7b, \x7d\"" =
        .ok (.binary (.comparison .equal) (.identifier "x")
          (.literal "\x7b, \x7d")) := by
    decide +kernel
  exact ⟨compiled, json_is_faithful.2.2.2 1 _ _ compiled⟩

end FilterLang
