import Packrat.Proofs.Cycles
import Packrat.Proofs.Distance
import Packrat.Proofs.Generation
import Packrat.Proofs.Masks

namespace Packrat
namespace Grammar

/-!
# Mocks only simplify a grammar

A grammar with more mocks masks the one before.  So the analyses find no more there: no rule more is
nullable, is called on the left or can be reached.  What the analyses accept, the check for
undefined rules and the check for left recursion, they accept under every set of mocks.
-/

variable {grammar : Grammar} {names : List String}

theorem exists_mockAll (defined : forall name, name ∈ names -> grammar.contains name = true) :
    Exists fun later => grammar.mockAll names = .ok later := by
  induction names generalizing grammar with
  | nil => exact ⟨grammar, rfl⟩
  | cons name names inductionHypothesis =>
    have mocked : grammar.mock name = .ok (grammar.setMock name true) := by
      rcases Option.isSome_iff_exists.mp (defined name List.mem_cons_self) with ⟨target, found⟩
      rw [mock, get, found]
      rfl
    have still : forall other, other ∈ names ->
        (grammar.setMock name true).contains other = true := by
      intro other member
      rcases Option.isSome_iff_exists.mp (defined other (List.mem_cons_of_mem name member)) with
        ⟨target, found⟩
      rcases (masks_mock mocked).find?_masking found with ⟨later, found', -⟩
      exact contains_of_found found'
    rcases inductionHypothesis still with ⟨later, rest⟩
    refine ⟨later, ?_⟩
    rw [mockAll, List.foldlM_cons, mocked]
    exact rest

/-- Mocking defined rules only simplifies a grammar.  No rule becomes nullable, no rule calls
another one on the left that it did not call, and none can be reached that could not be reached.  So
a rule that was validated stays valid, and a grammar without left recursion stays without. -/
theorem mockAll_simplifies (grammar : Grammar) (names : List String)
    (defined : forall name, name ∈ names -> grammar.contains name = true) :
    Exists fun later => grammar.mockAll names = .ok later ∧
      later.nullableRules ⊆ grammar.nullableRules ∧
      (forall name, later.leftCallsOf later.nullableRules name ⊆
        grammar.leftCallsOf grammar.nullableRules name) ∧
      (forall root name, later.Reaches root name -> grammar.Reaches root name) ∧
      (forall root, grammar.validate root = .ok () -> later.validate root = .ok ()) ∧
      (grammar.checkLeftRecursion = .ok () -> later.checkLeftRecursion = .ok ()) := by
  rcases exists_mockAll defined with ⟨later, mocked⟩
  have masks := masks_mockAll mocked
  refine ⟨later, mocked, masks.nullableRules_subset, ?_, fun _ _ => masks.reaches, ?_, ?_⟩
  · intro name called call
    rw [mem_leftCallsOf_iff] at call ⊢
    exact masks.callsOnLeft call
  · intro root validated
    rw [validate_eq_ok_iff] at validated ⊢
    exact masks.complete validated
  · intro checked
    rw [checkLeftRecursion_eq_ok_iff, findLeftRecursion_eq_none_iff] at checked ⊢
    exact masks.leftAcyclic checked

/-- A rule that begins with a nullable one.  A mock of the nullable rule takes a call on the left
from the rule that refers to it, which is not mocked itself. -/
theorem mockAll_simplifies_nullable :
    let grammar := ({} : Grammar).changes
      [.define "a" (.sequence [.rule "b", .rule "c", .word "x"]),
        .define "b" (.optional (.sequence [.word "y", .rule "a"])),
        .define "c" (.choice [.sequence [.rule "b", .rule "d"], .word "z"]),
        .define "d" (.oneOrMore (.rule "b")), .mock "d"]
    (forall name, name ∈ ["b", "d", "b"] -> grammar.contains name = true) ∧
      grammar.validate "a" = .ok () ∧ grammar.checkLeftRecursion = .ok () ∧
      Exists fun later => grammar.mockAll ["b", "d", "b"] = .ok later ∧
        later.nullableRules ⊆ ["b"] ∧ later.validate "a" = .ok () ∧
        later.checkLeftRecursion = .ok () := by
  intro grammar
  have defined : forall name, name ∈ ["b", "d", "b"] -> grammar.contains name = true := by decide
  have validated : grammar.validate "a" = .ok () := by decide
  have checked : grammar.checkLeftRecursion = .ok () := by decide
  have nullable : grammar.nullableRules = ["b"] := by decide
  rcases mockAll_simplifies grammar ["b", "d", "b"] defined with
    ⟨later, mocked, fewer, -, -, valid, free⟩
  rw [nullable] at fewer
  exact ⟨defined, validated, checked, later, mocked, fewer, valid "a" validated, free checked⟩

end Grammar
end Packrat
