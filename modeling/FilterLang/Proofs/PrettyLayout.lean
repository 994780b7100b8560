import FilterLang.Expr.Layout
import FilterLang.Proofs.Literals

/-!
# The laid-out form is the canonical form with layout

Without the blanks outside its literals, and then without the commas that stand
directly before a closing brace, the laid-out form is the canonical form. Every
line of it is indented by the braces that are open before it, and no literal
adds a line.
-/

namespace FilterLang

/-! ## Blanks and commas of the layout -/

/-- The blanks that layout is made of. -/
def isLayout (character : Char) : Bool :=
  character = ' ' ∨ character = '\n'

/-- Scanned characters without the commas outside literals that stand directly
before a closing brace. -/
def dropScannedCommas : List Scanned → List Scanned
  | [] => []
  | first :: later =>
      if first = ⟨',', false⟩ ∧ later.head? = some ⟨'}', false⟩ then
        dropScannedCommas later
      else
        first :: dropScannedCommas later

/-- A text without the commas outside its literals that stand directly before a
closing brace. -/
def dropCommas (text : List Char) : List Char :=
  (dropScannedCommas (scan text)).map Scanned.character

theorem dropScannedCommas_append
    {front : List Scanned}
    (noComma : ⟨',', false⟩ ∉ front)
    (back : List Scanned) :
    dropScannedCommas (front ++ back) = front ++ dropScannedCommas back := by
  induction front with
  | nil => rfl
  | cons first later hypothesis =>
      rw [List.mem_cons, not_or] at noComma
      obtain ⟨notComma, laterNoComma⟩ := noComma
      rw [List.cons_append, dropScannedCommas, hypothesis laterNoComma,
        if_neg fun comma => notComma comma.1.symm]
      rfl

theorem dropCommas_literal
    {literal : List Char}
    (isLiteral : IsLiteral literal)
    (rest : List Char) :
    dropCommas (literal ++ rest) = literal ++ dropCommas rest := by
  have noComma : ⟨',', false⟩ ∉ literal.map (Scanned.mk · true) := by simp
  rw [dropCommas, isLiteral.scan_append, dropScannedCommas_append noComma]
  simp [dropCommas, Function.comp_def]

theorem dropCommas_plain
    {text : List Char}
    (noQuote : '"' ∉ text)
    (noComma : ',' ∉ text)
    (rest : List Char) :
    dropCommas (text ++ rest) = text ++ dropCommas rest := by
  have noScannedComma : ⟨',', false⟩ ∉ text.map (Scanned.mk · false) := by
    simpa using noComma
  rw [dropCommas, scan_plain_append noQuote,
    dropScannedCommas_append noScannedComma]
  simp [dropCommas, Function.comp_def]

theorem dropCommas_trailing (rest : List Char) :
    dropCommas (',' :: '}' :: rest) = '}' :: dropCommas rest := by
  simp [dropCommas, scan_cons, dropScannedCommas]

theorem dropCommas_separating
    {first : Char}
    (notBrace : first ≠ '}')
    (rest : List Char) :
    dropCommas (',' :: first :: rest) = ',' :: dropCommas (first :: rest) := by
  have notScannedBrace :
      (scan (first :: rest)).head? ≠ some ⟨'}', false⟩ := by
    simp [scan, ScanState.scan, notBrace]
  rw [dropCommas, scan_cons (by decide), dropScannedCommas,
    if_neg fun comma => notScannedBrace comma.2]
  rfl

/-- What a line may start with behind its indentation, unless it closes a
brace. -/
def StartsLine (text : List Char) : Prop :=
  ∃ first later, text = first :: later ∧
    first ≠ ' ' ∧ first ≠ '\n' ∧ first ≠ '}'

theorem TokenKind.startsLine_name_append
    (kind : TokenKind)
    (rest : List Char) :
    StartsLine (kind.name.toList ++ rest) := by
  have nonempty : ∀ kind ∈ all, kind.name.toList ≠ [] := by decide
  obtain ⟨first, later, starts⟩ :=
    List.exists_cons_of_ne_nil (nonempty kind (mem_all kind))
  have different {mark : Char} (notUpper : ¬mark.isUpper) : first ≠ mark := by
    rintro rfl
    have absent := kind.notMem_name notUpper
    simp [starts] at absent
  refine ⟨first, later ++ rest, by rw [starts]; rfl, ?_⟩
  exact ⟨different (by decide), different (by decide), different (by decide)⟩

namespace Expr

variable {hidden : Char → Bool} {width level : Nat}

/-- The canonical form with a comma behind every operand, the last one
included. -/
def commaEnded (hidden : Char → Bool) : Expr → List Char
  | identifier name =>
      braced .identifier (Quoted.encode hidden name.toList ++ [','])
  | literal value =>
      braced .literal (Quoted.encode hidden value.toList ++ [','])
  | not child => braced .not (child.commaEnded hidden ++ [','])
  | binary op left right =>
      braced (.operator (.binary op))
        (left.commaEnded hidden ++ ',' :: right.commaEnded hidden ++ [','])

theorem dropCommas_braced
    {inside left : List Char}
    (kind : TokenKind)
    (drops : ∀ rest,
      dropCommas (inside ++ '}' :: rest) = left ++ '}' :: dropCommas rest)
    (rest : List Char) :
    dropCommas (braced kind inside ++ rest) =
      braced kind left ++ dropCommas rest := by
  have noQuote : '"' ∉ kind.name.toList ++ ['{'] := by
    simp [kind.notMem_name]
  have noComma : ',' ∉ kind.name.toList ++ ['{'] := by
    simp [kind.notMem_name]
  have header := dropCommas_plain noQuote noComma (inside ++ '}' :: rest)
  rw [drops] at header
  simpa [braced] using header

theorem commaEnded_startsLine
    (hidden : Char → Bool)
    (tree : Expr) :
    StartsLine (tree.commaEnded hidden) := by
  have braced_startsLine (kind : TokenKind) (inside : List Char) :
      StartsLine (braced kind inside) := by
    rw [braced, List.append_assoc]
    exact kind.startsLine_name_append _
  cases tree with
  | identifier => exact braced_startsLine _ _
  | literal => exact braced_startsLine _ _
  | not => exact braced_startsLine _ _
  | binary => exact braced_startsLine _ _

theorem dropCommas_leaf
    (kind : TokenKind)
    (text rest : List Char) :
    dropCommas (braced kind (Quoted.encode hidden text ++ [',']) ++ rest) =
      braced kind (Quoted.encode hidden text) ++ dropCommas rest := by
  refine dropCommas_braced kind (fun rest => ?_) rest
  rw [List.append_assoc, List.singleton_append,
    dropCommas_literal (Quoted.isLiteral_encode hidden text),
    dropCommas_trailing]

theorem dropCommas_commaEnded
    (tree : Expr)
    (rest : List Char) :
    dropCommas (tree.commaEnded hidden ++ rest) =
      tree.canonical hidden ++ dropCommas rest := by
  induction tree generalizing rest with
  | identifier name => exact dropCommas_leaf .identifier name.toList rest
  | literal value => exact dropCommas_leaf .literal value.toList rest
  | not child hypothesis =>
      refine dropCommas_braced .not (fun rest => ?_) rest
      rw [List.append_assoc, List.singleton_append, hypothesis,
        dropCommas_trailing]
  | binary op left right leftHypothesis rightHypothesis =>
      refine dropCommas_braced _ (fun rest => ?_) rest
      obtain ⟨first, later, starts, -, -, notBrace⟩ :=
        right.commaEnded_startsLine hidden
      have separating :=
        dropCommas_separating notBrace (later ++ ',' :: '}' :: rest)
      rw [← List.cons_append, ← starts, rightHypothesis,
        dropCommas_trailing] at separating
      simp only [List.append_assoc, List.cons_append, List.nil_append,
        leftHypothesis, separating]

/-! ## Blanks -/

/-- A line of its own, with its indentation. -/
def freshLine
    (width level : Nat)
    (text : List Char) : List Char :=
  '\n' :: indentation width level ++ text

theorem lineFeeds_to_front
    (write : List Char → List Char)
    (lines : List (List Char)) :
    '\n' :: lines.flatMap (write · ++ [',', '\n']) =
      lines.flatMap ('\n' :: write · ++ [',']) ++ ['\n'] := by
  induction lines with
  | nil => rfl
  | cons line lines hypothesis =>
      calc '\n' :: (line :: lines).flatMap (write · ++ [',', '\n'])
          = '\n' :: write line ++ [','] ++
              '\n' :: lines.flatMap (write · ++ [',', '\n']) := by
            simp
        _ = '\n' :: write line ++ [','] ++
              (lines.flatMap ('\n' :: write · ++ [',']) ++ ['\n']) := by
            rw [hypothesis]
        _ = _ := by
            simp

/-- Every line of a block may be taken with the line feed in front of it. -/
theorem block_eq
    (width level : Nat)
    (kind : TokenKind)
    (lines : List (List Char)) :
    block width level kind lines =
      kind.name.toList ++ [' ', '{'] ++
        lines.flatMap (freshLine width (level + 1) · ++ [',']) ++
        freshLine width level ['}'] := by
  calc block width level kind lines
      = kind.name.toList ++ [' ', '{'] ++
          '\n' :: lines.flatMap
            (indentation width (level + 1) ++ · ++ [',', '\n']) ++
          indentation width level ++ ['}'] := by
        simp [block]
    _ = kind.name.toList ++ [' ', '{'] ++
          (lines.flatMap (freshLine width (level + 1) · ++ [',']) ++
            ['\n']) ++
          indentation width level ++ ['}'] := by
        rw [lineFeeds_to_front]
        rfl
    _ = _ := by
        simp [freshLine]

theorem not_mem_indentation
    {character : Char}
    (notSpace : character ≠ ' ')
    (width level : Nat) :
    character ∉ indentation width level :=
  fun member => notSpace (List.eq_of_mem_replicate member)

theorem erases_freshLine
    {text left : List Char}
    (width level : Nat)
    (erases : Erases isLayout text left) :
    Erases isLayout (freshLine width level text) left := by
  have blank : Erases isLayout ('\n' :: indentation width level) [] := by
    refine .blank (by simp [not_mem_indentation]) ?_
    refine List.forall_mem_cons.mpr ⟨by decide, fun character member => ?_⟩
    rw [List.eq_of_mem_replicate member]
    decide
  exact blank.append erases

theorem erases_block
    {lines lefts : List (List Char)}
    (kind : TokenKind)
    (erases : List.Forall₂ (Erases isLayout) lines lefts) :
    Erases isLayout (block width level kind lines)
      (braced kind (lefts.flatMap (· ++ [',']))) := by
  have name : Erases isLayout kind.name.toList kind.name.toList := by
    refine .kept (kind.notMem_name (by decide)) fun character member => ?_
    have isUpper := TokenKind.isUpper_of_mem_name member
    intro blank
    rcases of_decide_eq_true blank with rfl | rfl
    · exact absurd isUpper (by decide)
    · exact absurd isUpper (by decide)
  have opening : Erases isLayout [' ', '{'] ['{'] := .plain (by decide)
  have comma : Erases isLayout [','] [','] := .plain (by decide)
  have closing : Erases isLayout ['}'] ['}'] := .plain (by decide)
  have items :
      Erases isLayout
        (lines.flatMap (freshLine width (level + 1) · ++ [',']))
        (lefts.flatMap (· ++ [','])) := by
    refine .flatMap (fun line left lineErases => ?_) erases
    exact (erases_freshLine width (level + 1) lineErases).append comma
  have whole := ((name.append opening).append items).append
    (erases_freshLine width level closing)
  rw [block_eq]
  simpa [braced] using whole

theorem erases_leaf
    (kind : TokenKind)
    (text : List Char) :
    Erases isLayout (block width level kind [Quoted.encode hidden text])
      (braced kind (Quoted.encode hidden text ++ [','])) := by
  have literal :
      Erases isLayout (Quoted.encode hidden text)
        (Quoted.encode hidden text) :=
    .literal (Quoted.isLiteral_encode hidden text)
  simpa using erases_block kind (.cons literal .nil)

/-- Without its blanks the laid-out form is the canonical form with a comma
behind every operand. -/
theorem erases_laidOut
    (tree : Expr)
    (level : Nat) :
    Erases isLayout (tree.laidOut hidden width level)
      (tree.commaEnded hidden) := by
  induction tree generalizing level with
  | identifier name => exact erases_leaf .identifier name.toList
  | literal value => exact erases_leaf .literal value.toList
  | not child hypothesis =>
      simpa [laidOut, commaEnded] using
        erases_block .not (.cons (hypothesis (level + 1)) .nil)
  | binary op left right leftHypothesis rightHypothesis =>
      simpa [laidOut, commaEnded] using
        erases_block (.operator (.binary op))
          (.cons (leftHypothesis (level + 1))
            (.cons (rightHypothesis (level + 1)) .nil))

/-- Without its layout the laid-out form is the canonical form. -/
theorem dropCommas_eraseOutside_laidOut (tree : Expr) :
    dropCommas (eraseOutside isLayout (tree.laidOut hidden width level)) =
      tree.canonical hidden := by
  rw [(tree.erases_laidOut level).erase_eq]
  simpa [dropCommas, dropScannedCommas] using tree.dropCommas_commaEnded []

example :
    dropCommas (eraseOutside isLayout
      "NOT \x7b\n  ID \x7b\n    \"a, \x7d\",\n  \x7d,\n\x7d".toList) =
      "NOT\x7bID\x7b\"a, \x7d\"\x7d\x7d".toList := by
  decide

end Expr

/-! ## Lines -/

/-- The number of open braces behind a scanned character. -/
def Scanned.openBraces
    (level : Nat)
    (scanned : Scanned) : Nat :=
  if scanned = ⟨'{', false⟩ then
    level + 1
  else if scanned = ⟨'}', false⟩ then
    level - 1
  else
    level

/-- The number of braces outside literals that are open behind a text, when so
many are open before it. -/
def openBraces
    (level : Nat)
    (text : List Char) : Nat :=
  (scan text).foldl Scanned.openBraces level

/-- What follows the start of a line inside `level` open braces is indented: by
a width for every brace, except for the one that the line closes. -/
def IsIndentedAt
    (width level : Nat)
    (rest : List Char) : Prop :=
  ∃ braces first later,
    rest = List.replicate (width * braces) ' ' ++ first :: later ∧
      first ≠ ' ' ∧ first ≠ '\n' ∧
        level = if first = '}' then braces + 1 else braces

/-- Every line of a text is indented. -/
def IsIndented
    (width : Nat)
    (text : List Char) : Prop :=
  ∀ before rest, text = before ++ rest →
    (before = [] ∨ ∃ earlier, before = earlier ++ ['\n']) →
      IsIndentedAt width (openBraces 0 before) rest

/-- A part of a text between two places with so many open braces: every line
that starts in the part is indented, and none starts in a literal. -/
structure Segment
    (width before behind : Nat)
    (text : List Char) : Prop where
  /-- The part is closed. -/
  closed : IsClosed text
  /-- It opens and closes so many braces. -/
  openBraces_eq : openBraces before text = behind
  /-- Its lines are indented. -/
  indented : ∀ front rest, text = front ++ '\n' :: rest →
    IsIndentedAt width (openBraces before (front ++ ['\n'])) rest
  /-- No line feed is in a literal. -/
  noLineFeed : ⟨'\n', true⟩ ∉ scan text

theorem Scanned.foldl_openBraces
    {scanned : List Scanned}
    (noOpening : ⟨'{', false⟩ ∉ scanned)
    (noClosing : ⟨'}', false⟩ ∉ scanned)
    (level : Nat) :
    scanned.foldl openBraces level = level := by
  induction scanned with
  | nil => rfl
  | cons first later hypothesis =>
      rw [List.mem_cons, not_or] at noOpening noClosing
      rw [List.foldl_cons, openBraces, if_neg (Ne.symm noOpening.1),
        if_neg (Ne.symm noClosing.1)]
      exact hypothesis noOpening.2 noClosing.2

theorem openBraces_append
    {front : List Char}
    (closed : IsClosed front)
    (level : Nat)
    (back : List Char) :
    openBraces level (front ++ back) =
      openBraces (openBraces level front) back := by
  simp [openBraces, closed back]

theorem IsIndentedAt.append
    {width level : Nat}
    {front : List Char}
    (indented : IsIndentedAt width level front)
    (back : List Char) :
    IsIndentedAt width level (front ++ back) := by
  obtain ⟨braces, first, later, rfl, notSpace, notLineFeed, level_eq⟩ :=
    indented
  exact ⟨braces, first, later ++ back, by simp, notSpace, notLineFeed,
    level_eq⟩

namespace Segment

variable {width before between behind level : Nat}

theorem append
    {front back : List Char}
    (frontSegment : Segment width before between front)
    (backSegment : Segment width between behind back) :
    Segment width before behind (front ++ back) where
  closed := frontSegment.closed.append backSegment.closed
  openBraces_eq := by
    rw [openBraces_append frontSegment.closed, frontSegment.openBraces_eq,
      backSegment.openBraces_eq]
  indented := by
    have behindFront (part : List Char) :
        openBraces before (front ++ part) = openBraces between part := by
      rw [openBraces_append frontSegment.closed, frontSegment.openBraces_eq]
    intro earlier rest parts
    -- The line feed is in the back part, the first of the back part, or in the
    -- front part; there the line may go on into the back part.
    rcases List.append_eq_append_iff.mp parts with
      ⟨middle, rfl, back_eq⟩ | ⟨middle, front_eq, rest_eq⟩
    · rw [List.append_assoc, behindFront]
      exact backSegment.indented middle rest back_eq
    · cases middle with
      | nil =>
          rw [List.append_nil] at front_eq
          rw [← front_eq, behindFront]
          exact backSegment.indented [] rest rest_eq.symm
      | cons first middle =>
          obtain ⟨rfl, rfl⟩ := List.cons.inj rest_eq
          exact (frontSegment.indented earlier middle front_eq).append back
  noLineFeed := by
    rw [frontSegment.closed, List.mem_append, not_or]
    exact ⟨frontSegment.noLineFeed, backSegment.noLineFeed⟩

theorem of_noLineFeed
    {text : List Char}
    (closed : IsClosed text)
    (openBraces_eq : openBraces before text = behind)
    (noLineFeed : '\n' ∉ text) :
    Segment width before behind text where
  closed := closed
  openBraces_eq := openBraces_eq
  indented := by
    rintro front rest rfl
    simp at noLineFeed
  noLineFeed := by
    intro member
    rw [← map_character_scan text] at noLineFeed
    exact noLineFeed (List.mem_map_of_mem member)

/-- A line feed may stand in front of an indented line. -/
theorem lineFeed
    {text : List Char}
    (segment : Segment width before behind text)
    (indented : IsIndentedAt width before text) :
    Segment width before behind ('\n' :: text) where
  closed := by
    intro rest
    rw [List.cons_append, scan_cons (by decide), scan_cons (by decide),
      segment.closed]
    rfl
  openBraces_eq := by
    rw [← segment.openBraces_eq, openBraces, scan_cons (by decide)]
    rfl
  indented := by
    intro front rest parts
    cases front with
    | nil =>
        obtain ⟨-, rfl⟩ := List.cons.inj parts
        exact indented
    | cons first front =>
        obtain ⟨rfl, rfl⟩ := List.cons.inj parts
        have atLine := segment.indented front rest rfl
        rw [List.cons_append, openBraces, scan_cons (by decide)]
        exact atLine
  noLineFeed := by
    rw [scan_cons (by decide)]
    simpa using segment.noLineFeed

theorem flatMap
    {write : List Char → List Char}
    {lines : List (List Char)}
    (each : ∀ line ∈ lines, Segment width level level (write line)) :
    Segment width level level (lines.flatMap write) := by
  induction lines with
  | nil => exact of_noLineFeed .nil rfl (by simp)
  | cons line lines hypothesis =>
      obtain ⟨lineSegment, linesSegments⟩ := List.forall_mem_cons.mp each
      rw [List.flatMap_cons]
      exact lineSegment.append (hypothesis linesSegments)

theorem literal
    {text : List Char}
    (isLiteral : IsLiteral text)
    (noLineFeed : '\n' ∉ text) :
    Segment width level level text := by
  refine of_noLineFeed (.literal isLiteral) ?_ noLineFeed
  rw [openBraces, isLiteral.scan_eq]
  exact Scanned.foldl_openBraces (by simp) (by simp) level

theorem plain
    {text : List Char}
    (noQuote : '"' ∉ text)
    (noLineFeed : '\n' ∉ text)
    (noOpening : '{' ∉ text)
    (noClosing : '}' ∉ text) :
    Segment width level level text := by
  refine of_noLineFeed (.plain noQuote) ?_ noLineFeed
  rw [openBraces, scan_plain noQuote]
  exact Scanned.foldl_openBraces (by simpa) (by simpa) level

end Segment

namespace Expr

variable {hidden : Char → Bool} {width : Nat}

theorem isIndentedAt_indentation
    {text : List Char}
    (width level : Nat)
    (starts : StartsLine text) :
    IsIndentedAt width level (indentation width level ++ text) := by
  obtain ⟨first, later, rfl, notSpace, notLineFeed, notBrace⟩ := starts
  refine ⟨level, first, later, ?_, notSpace, notLineFeed, ?_⟩
  · rw [indentation, Nat.mul_comm]
  · rw [if_neg notBrace]

theorem segment_freshLine
    {before behind level : Nat}
    {text : List Char}
    (segment : Segment width before behind text)
    (indented : IsIndentedAt width before (indentation width level ++ text)) :
    Segment width before behind (freshLine width level text) := by
  have absent {mark : Char} (notSpace : mark ≠ ' ') :
      mark ∉ indentation width level :=
    not_mem_indentation notSpace width level
  have blank : Segment width before before (indentation width level) :=
    .plain (absent (by decide)) (absent (by decide)) (absent (by decide))
      (absent (by decide))
  exact (blank.append segment).lineFeed indented

theorem segment_block
    {lines : List (List Char)}
    (kind : TokenKind)
    (level : Nat)
    (segments : ∀ line ∈ lines,
      Segment width (level + 1) (level + 1) line ∧ StartsLine line) :
    Segment width level level (block width level kind lines) := by
  have name : Segment width level level kind.name.toList :=
    .plain (kind.notMem_name (by decide)) (kind.notMem_name (by decide))
      (kind.notMem_name (by decide)) (kind.notMem_name (by decide))
  have opening : Segment width level (level + 1) [' ', '{'] :=
    .of_noLineFeed (.plain (by decide)) rfl (by decide)
  have comma : Segment width (level + 1) (level + 1) [','] :=
    .plain (by decide) (by decide) (by decide) (by decide)
  have items :
      Segment width (level + 1) (level + 1)
        (lines.flatMap (freshLine width (level + 1) · ++ [','])) := by
    refine .flatMap fun line member => ?_
    obtain ⟨segment, starts⟩ := segments line member
    have indented := isIndentedAt_indentation width (level + 1) starts
    exact (segment_freshLine segment indented).append comma
  have brace : Segment width (level + 1) level ['}'] :=
    .of_noLineFeed (.plain (by decide)) rfl (by decide)
  have braceIndented :
      IsIndentedAt width (level + 1) (indentation width level ++ ['}']) := by
    refine ⟨level, '}', [], ?_, by decide, by decide, rfl⟩
    rw [indentation, Nat.mul_comm]
  have closing := segment_freshLine brace braceIndented
  rw [block_eq]
  exact ((name.append opening).append items).append closing

theorem laidOut_startsLine
    (hidden : Char → Bool)
    (width level : Nat)
    (tree : Expr) :
    StartsLine (tree.laidOut hidden width level) := by
  have block_startsLine (kind : TokenKind) (lines : List (List Char)) :
      StartsLine (block width level kind lines) := by
    rw [block_eq, List.append_assoc, List.append_assoc]
    exact kind.startsLine_name_append _
  cases tree with
  | identifier => exact block_startsLine _ _
  | literal => exact block_startsLine _ _
  | not => exact block_startsLine _ _
  | binary => exact block_startsLine _ _

theorem segment_leaf
    (kind : TokenKind)
    (text : List Char)
    (level : Nat) :
    Segment width level level
      (block width level kind [Quoted.encode hidden text]) := by
  refine segment_block kind level fun line member => ?_
  obtain rfl := List.mem_singleton.mp member
  refine ⟨.literal (Quoted.isLiteral_encode hidden text)
    (Quoted.notMem_encode (by decide) hidden text), ?_⟩
  exact ⟨'"', _, rfl, by decide, by decide, by decide⟩

/-- Wherever it stands, the laid-out form opens and closes braces alike and
indents its lines by the braces that are open before them. -/
theorem segment_laidOut
    (hidden : Char → Bool)
    (width level : Nat)
    (tree : Expr) :
    Segment width level level (tree.laidOut hidden width level) := by
  induction tree generalizing level with
  | identifier name => exact segment_leaf .identifier name.toList level
  | literal value => exact segment_leaf .literal value.toList level
  | not child hypothesis =>
      refine segment_block .not level ?_
      simp [hypothesis (level + 1), laidOut_startsLine]
  | binary op left right leftHypothesis rightHypothesis =>
      refine segment_block (.operator (.binary op)) level ?_
      simp [leftHypothesis (level + 1), rightHypothesis (level + 1),
        laidOut_startsLine]

theorem isIndented_laidOut
    (hidden : Char → Bool)
    (width : Nat)
    (tree : Expr) :
    IsIndented width (tree.laidOut hidden width 0) := by
  rintro before rest parts (rfl | ⟨earlier, rfl⟩)
  · have starts := tree.laidOut_startsLine hidden width 0
    have indented := isIndentedAt_indentation width 0 starts
    rw [parts] at indented
    simpa [indentation, openBraces] using indented
  · have segment := tree.segment_laidOut hidden width 0
    refine segment.indented earlier rest ?_
    rw [parts, List.append_assoc]
    rfl

theorem pretty_injective
    {left right : Expr}
    (same : left.pretty width = right.pretty width) :
    left = right := by
  have laidOut_eq :
      left.laidOut Quoted.isHidden width 0 =
        right.laidOut Quoted.isHidden width 0 :=
    String.ofList_injective same
  have canonical_eq :
      left.canonical Quoted.isHidden = right.canonical Quoted.isHidden := by
    rw [← dropCommas_eraseOutside_laidOut, laidOut_eq,
      dropCommas_eraseOutside_laidOut]
  exact Canonical.canonical_injective canonical_eq

/-- For every width of indentation: without the blanks outside its literals and
then without the commas that stand directly before a closing brace, what is
printed over several lines is the canonical form; every line is indented by the
braces outside literals that are open before it, one less where it closes one;
no line feed is in a literal; and different expressions are never printed
alike. -/
theorem pretty_is_canonical_with_layout (width : Nat) :
    (∀ tree : Expr,
      dropCommas (eraseOutside isLayout (tree.pretty width).toList) =
          tree.render.toList ∧
        IsIndented width (tree.pretty width).toList ∧
        ⟨'\n', true⟩ ∉ scan (tree.pretty width).toList) ∧
    ∀ left right : Expr,
      left.pretty width = right.pretty width ↔ left = right := by
  refine ⟨fun tree => ?_, fun left right => ⟨pretty_injective, ?_⟩⟩
  · simp only [pretty, render, String.toList_ofList]
    exact ⟨dropCommas_eraseOutside_laidOut tree,
      tree.isIndented_laidOut Quoted.isHidden width,
      (tree.segment_laidOut Quoted.isHidden width 0).noLineFeed⟩
  · rintro rfl
    rfl

end Expr
end FilterLang
