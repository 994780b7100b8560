import FilterLang.Proofs.ParseGrammar

/-!
# Comparisons in any order

A comparison takes bare leaves only, so two comparisons never share an operand
in an expression, and each of them can be resolved before the other. So whether
the comparisons are resolved kind by kind, in whatever order of the kinds, or
from left to right at once, the same tokens make up the same expressions. Where
tokens make up none, the error may depend on the order.
-/

namespace FilterLang

/-- By whatever rounds the comparisons are resolved, if only every kind has its
round, the same tokens make up the same expressions. -/
theorem parseBy_eq_ok_iff_parse
    {rounds : List (List Comparison)}
    (covers : ∀ kind : Comparison, ∃ kinds ∈ rounds, kind ∈ kinds)
    (maxDepth : Nat)
    (tokens : List Token)
    (tree : Expr) :
    parseBy (Phase.schedule rounds) maxDepth tokens = .ok tree ↔
      parse maxDepth tokens = .ok tree := by
  rw [parseBy_eq_ok_iff covers, parse_eq_ok_iff]

/-- Resolving the kinds of comparison one after another, in any order, and
resolving all comparisons at once, leftmost first, give an expression exactly
when the standard order does, and then the same one. -/
theorem any_order_of_comparisons
    {order : List Comparison}
    (isOrder : order.Perm Comparison.resolutionOrder)
    (maxDepth : Nat)
    (tokens : List Token)
    (tree : Expr) :
    (parseBy (Phase.schedule (order.map fun kind => [kind])) maxDepth tokens =
        .ok tree ↔
      parse maxDepth tokens = .ok tree) ∧
    (parseBy (Phase.schedule [order]) maxDepth tokens = .ok tree ↔
      parse maxDepth tokens = .ok tree) := by
  have inOrder (kind : Comparison) : kind ∈ order :=
    isOrder.mem_iff.mpr kind.mem_resolutionOrder
  refine ⟨parseBy_eq_ok_iff_parse ?_ maxDepth tokens tree,
    parseBy_eq_ok_iff_parse ?_ maxDepth tokens tree⟩
  · intro kind
    exact ⟨[kind], List.mem_map_of_mem (inOrder kind),
      List.mem_singleton_self kind⟩
  · intro kind
    exact ⟨order, List.mem_singleton_self order, inOrder kind⟩

/-- The tokens of `a < b OR c >= 1`. -/
def separateComparisons : List Token :=
  [⟨.identifier, "a", ⟨0, 1⟩⟩, ⟨.comparison .lessThan, "<", ⟨2, 3⟩⟩,
    ⟨.identifier, "b", ⟨4, 5⟩⟩, ⟨.or, "OR", ⟨6, 8⟩⟩,
    ⟨.identifier, "c", ⟨9, 10⟩⟩, ⟨.comparison .greaterEqual, ">=", ⟨11, 13⟩⟩,
    ⟨.literal, "1", ⟨14, 15⟩⟩]

theorem any_order_of_comparisons_reversed :
    Comparison.resolutionOrder.reverse.Perm Comparison.resolutionOrder ∧
      parseBy
          (Phase.schedule
            (Comparison.resolutionOrder.reverse.map fun kind => [kind]))
          2 separateComparisons =
        .ok (.binary .or
          (.binary (.comparison .lessThan) (.identifier "a") (.identifier "b"))
          (.binary (.comparison .greaterEqual) (.identifier "c")
            (.literal "1"))) ∧
      parseBy (Phase.schedule [Comparison.resolutionOrder.reverse]) 2
          separateComparisons =
        .ok (.binary .or
          (.binary (.comparison .lessThan) (.identifier "a") (.identifier "b"))
          (.binary (.comparison .greaterEqual) (.identifier "c")
            (.literal "1"))) := by
  have isOrder := List.reverse_perm Comparison.resolutionOrder
  have parsed :
      parse 2 separateComparisons =
        .ok (.binary .or
          (.binary (.comparison .lessThan) (.identifier "a") (.identifier "b"))
          (.binary (.comparison .greaterEqual) (.identifier "c")
            (.literal "1"))) := by
    cbv
  obtain ⟨kindByKind, atOnce⟩ :=
    any_order_of_comparisons isOrder 2 separateComparisons _
  exact ⟨isOrder, kindByKind.mpr parsed, atOnce.mpr parsed⟩

/-- In the chain `a < b >= c` the comparison that is resolved first takes the
operand that the other one lacks then. -/
example :
    let chain : List Token :=
      [⟨.identifier, "a", ⟨0, 1⟩⟩, ⟨.comparison .lessThan, "<", ⟨2, 3⟩⟩,
        ⟨.identifier, "b", ⟨4, 5⟩⟩,
        ⟨.comparison .greaterEqual, ">=", ⟨6, 8⟩⟩,
        ⟨.identifier, "c", ⟨9, 10⟩⟩]
    parse 1 chain =
        .error (.invalidOperand (.binary (.comparison .lessThan)) .right) ∧
      parseBy (Phase.schedule [Comparison.resolutionOrder]) 1 chain =
        .error
          (.invalidOperand (.binary (.comparison .greaterEqual)) .left) := by
  constructor
  · cbv
  · cbv

end FilterLang
