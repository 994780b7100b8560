import FilterLang.Check
import FilterLang.Proofs.CanonicalRoundTrip
import FilterLang.Proofs.SourceText

/-!
# What is compiled can be delivered and read back

Checking a source text fails with the error of compiling it and with no other.
Where the text compiles, every format is printed, and the limit under which it
compiles is enough for reading the canonical form back; the least limit that is
enough is the depth of the expression.
-/

namespace FilterLang

namespace Check

variable {maxDepth : Nat} {source : String}

theorem run_of_compile_error
    {error : CompileError}
    (failed : compile maxDepth source = .error error)
    (format : OutputFormat)
    (syntaxOnly : Bool) :
    run ⟨some source, format, syntaxOnly, maxDepth⟩ =
      .error (.compile error) := by
  simp only [run, failed]
  rfl

/-- Checking prints what was compiled, unless only the syntax is asked for. -/
theorem run_of_compile_ok
    {tree : Expr}
    (compiled : compile maxDepth source = .ok tree)
    (format : OutputFormat)
    (syntaxOnly : Bool) :
    run ⟨some source, format, syntaxOnly, maxDepth⟩ =
      .ok (if syntaxOnly then .valid else .printed (format.print tree)) := by
  simp only [run, compiled]
  cases syntaxOnly <;> rfl

end Check

/-- From its canonical form an expression is read back under every limit that
its depth allows for, and under no other. -/
theorem Canonical.read_render
    (limit : Nat)
    (tree : Expr) :
    (tree.depth ≤ limit → read limit tree.render = .ok tree) ∧
      (limit < tree.depth →
        ∃ position, read limit tree.render =
          .error ⟨position, .tooDeep limit⟩) := by
  obtain ⟨position, outcome⟩ := read_canonical Quoted.isHidden limit tree
  constructor
  · intro within
    rw [if_pos within] at outcome
    exact outcome
  · intro deep
    rw [if_neg (Nat.not_le.mpr deep)] at outcome
    exact ⟨position, outcome⟩

/-- Either a source text does not compile, and checking it fails with the same
error whatever is asked for; or it compiles within the limit, every way of
checking it succeeds, and from the printed canonical form the same expression is
read back under exactly those limits that are not less than its depth. -/
theorem check_delivers_what_compiles
    (maxDepth : Nat)
    (source : String) :
    (∃ error,
      compile maxDepth source = .error error ∧
      ∀ format syntaxOnly,
        Check.run ⟨some source, format, syntaxOnly, maxDepth⟩ =
          .error (.compile error)) ∨
    ∃ tree,
      compile maxDepth source = .ok tree ∧
      tree.depth ≤ maxDepth ∧
      (∀ format,
        Check.run ⟨some source, format, true, maxDepth⟩ = .ok .valid ∧
        Check.run ⟨some source, format, false, maxDepth⟩ =
          .ok (.printed (format.print tree))) ∧
      ∃ text,
        Check.run ⟨some source, .canonical, false, maxDepth⟩ =
          .ok (.printed text) ∧
        ∀ limit,
          (tree.depth ≤ limit → Canonical.read limit text = .ok tree) ∧
          (limit < tree.depth →
            ∃ position, Canonical.read limit text =
              .error ⟨position, .tooDeep limit⟩) := by
  cases compiled : compile maxDepth source with
  | error error =>
      exact Or.inl ⟨error, rfl, Check.run_of_compile_error compiled⟩
  | ok tree =>
      have run_eq := Check.run_of_compile_ok compiled
      refine Or.inr ⟨tree, rfl, (expressible_of_compile compiled).2, ?_,
        tree.render, run_eq .canonical false, ?_⟩
      · intro format
        exact ⟨run_eq format true, run_eq format false⟩
      · intro limit
        exact Canonical.read_render limit tree

end FilterLang
