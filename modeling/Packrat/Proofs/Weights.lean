import Mathlib.Algebra.GroupWithZero.Nat
import Packrat.Proofs.Plain

namespace Packrat

/-!
# Weights of expressions

The weight of an expression takes sequences as products, choices as sums and repetitions as squares.
It is the same for the plain expression.  Whatever is taken out of a sequence, or from under a
repetition, makes an expression lighter, so that a listing that loses parentheses is found out by
its weight.
-/

namespace Combination

/-- The weight of a combination of parts with such weights. -/
def total : Combination -> List Nat -> Nat
  | sequence => List.prod
  | choice => List.sum

theorem total_flatten (combination : Combination) (weights : List (List Nat)) :
    combination.total weights.flatten = combination.total (weights.map combination.total) := by
  cases combination with
  | sequence => exact List.prod_flatten
  | choice => exact List.sum_flatten

theorem total_singleton (combination : Combination) (weight : Nat) :
    combination.total [weight] = weight := by
  cases combination with
  | sequence => exact List.prod_singleton
  | choice => exact List.sum_singleton

end Combination

namespace Expression

variable {combination : Combination} {expressions : List Expression}

mutual

/-- The weight of an expression. -/
def weight : Expression -> Nat
  | literal _ _ => 2
  | rule _ => 2
  | sequence items => Combination.sequence.total (weightAll items)
  | choice alternatives => Combination.choice.total (weightAll alternatives)
  | optional body => weight body
  | zeroOrMore body => weight body * weight body
  | oneOrMore body => weight body * weight body
  | mock => 2

def weightAll : List Expression -> List Nat
  | [] => []
  | item :: items => weight item :: weightAll items

end

theorem weightAll_eq (expressions : List Expression) :
    weightAll expressions = expressions.map weight := by
  induction expressions with
  | nil => rfl
  | cons expression expressions inductionHypothesis =>
    rw [weightAll, inductionHypothesis, List.map_cons]

theorem weight_of (combination : Combination) (expressions : List Expression) :
    (combination.of expressions).weight = combination.total (expressions.map weight) := by
  rw [← weightAll_eq]
  cases combination <;> rfl

theorem total_parts (combination : Combination) (expression : Expression) :
    combination.total ((combination.parts expression).map weight) = expression.weight := by
  rcases combination.parts_cases expression with ⟨expressions, rfl⟩ | single
  · rw [combination.parts_of, weight_of]
  · rw [single]
    exact combination.total_singleton expression.weight

theorem weight_combine (combination : Combination) (expressions : List Expression) :
    (combination.combine expressions).weight = combination.total (expressions.map weight) := by
  have flat : combination.total ((expressions.flatMap combination.parts).map weight) =
      combination.total (expressions.map weight) := by
    rw [List.map_flatMap, List.flatMap_def, Combination.total_flatten, List.map_map]
    exact congrArg combination.total
      (List.map_congr_left fun expression _ => total_parts combination expression)
  rcases combination.combine_eq expressions with ⟨expression, rfl, same⟩ | ⟨-, same⟩
  · rw [same]
    exact (combination.total_singleton expression.weight).symm
  · rw [same, weight_of, flat]

theorem weight_plain (expression : Expression) : expression.plain.weight = expression.weight := by
  have combined : forall (combination : Combination) (parts : List Expression),
      (forall part, part ∈ parts -> part.plain.weight = part.weight) ->
      (combination.combine (plainAll parts)).weight = combination.total (weightAll parts) := by
    intro combination parts inductionHypothesis
    rw [weight_combine, plainAll_eq, weightAll_eq, List.map_map]
    exact congrArg combination.total (List.map_congr_left inductionHypothesis)
  induction expression using Expression.induction with
  | literal kind text => cases text <;> rfl
  | rule name => rfl
  | sequence items inductionHypothesis => exact combined .sequence items inductionHypothesis
  | choice alternatives inductionHypothesis =>
    exact combined .choice alternatives inductionHypothesis
  | optional body inductionHypothesis => exact inductionHypothesis
  | zeroOrMore body inductionHypothesis | oneOrMore body inductionHypothesis =>
    rw [plain, weight, weight, inductionHypothesis]
  | mock => rfl

theorem two_le_total (combination : Combination) {weights : List Nat} (ne_nil : weights ≠ [])
    (heavy : forall weight, weight ∈ weights -> 2 ≤ weight) : 2 ≤ combination.total weights := by
  induction weights with
  | nil => exact absurd rfl ne_nil
  | cons weight weights inductionHypothesis =>
    have first := heavy weight List.mem_cons_self
    cases weights with
    | nil => exact (combination.total_singleton weight).symm ▸ first
    | cons next weights =>
      have others := inductionHypothesis (List.cons_ne_nil _ _) fun other member =>
        heavy other (List.mem_cons_of_mem weight member)
      cases combination with
      | sequence =>
        have product : 2 * 1 ≤ weight * (next :: weights).prod :=
          Nat.mul_le_mul first (Nat.le_of_succ_le others)
        exact Nat.le_trans product (Nat.le_of_eq List.prod_cons.symm)
      | choice =>
        have sum : 2 ≤ weight + (next :: weights).sum := Nat.le_add_right_of_le first
        exact Nat.le_trans sum (Nat.le_of_eq List.sum_cons.symm)

/-- No expression that can be listed weighs less than a token. -/
theorem two_le_weight (expression : Expression) (listable : expression.isListable = true) :
    2 ≤ expression.weight := by
  have combined : forall (combination : Combination) (parts : List Expression),
      (forall part, part ∈ parts -> part.isListable = true -> 2 ≤ part.weight) ->
      (!parts.isEmpty && isListableAll parts) = true ->
      2 ≤ combination.total (weightAll parts) := by
    intro combination parts inductionHypothesis listable
    rcases isListable_parts_iff.mp listable with ⟨ne_nil, listable⟩
    rw [weightAll_eq]
    refine two_le_total combination (List.map_eq_nil_iff.not.mpr ne_nil) fun weight member => ?_
    rcases List.mem_map.mp member with ⟨part, listed, rfl⟩
    exact inductionHypothesis part listed (listable part listed)
  induction expression using Expression.induction with
  | literal | rule | mock => exact Nat.le_refl 2
  | sequence items inductionHypothesis =>
    exact combined .sequence items inductionHypothesis listable
  | choice alternatives inductionHypothesis =>
    exact combined .choice alternatives inductionHypothesis listable
  | optional body inductionHypothesis => exact inductionHypothesis listable
  | zeroOrMore body inductionHypothesis | oneOrMore body inductionHypothesis =>
    have body := inductionHypothesis listable
    exact Nat.le_trans body (Nat.le_mul_of_pos_right _ (by omega))

end Expression
end Packrat
