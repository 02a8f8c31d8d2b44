import Packrat.Proofs.Glyphs

namespace Packrat

/-!
# Plain expressions

A listing does not show everything of an expression: sequences within sequences and choices within
choices are shown without parentheses, a sequence or a choice of one part is shown as this part, and
the kind of a token does not show beside its text.  The plain expression is what remains of an
expression without all that.  It is known by its parts, be they taken as items or as alternatives.
-/

/-- How the parts of a compound belong together. -/
inductive Combination where
  | sequence
  | choice
  deriving DecidableEq

namespace Combination

variable {combination : Combination} {first second : Expression} {expressions : List Expression}

/-- The combination of some parts, as it is. -/
def of : Combination -> List Expression -> Expression
  | sequence => .sequence
  | choice => .choice

/-- The parts that an expression adds to a combination: its own ones when it is such a combination,
and else only itself. -/
def parts : Combination -> Expression -> List Expression
  | sequence, .sequence items => items
  | choice, .choice alternatives => alternatives
  | _, expression => [expression]

/-- The combination of some expressions without combinations of the same sort in it.  A single
expression is not combined. -/
def combine (combination : Combination) : List Expression -> Expression
  | [expression] => expression
  | expressions => combination.of (expressions.flatMap combination.parts)

theorem parts_of (combination : Combination) (expressions : List Expression) :
    combination.parts (combination.of expressions) = expressions := by
  cases combination <;> rfl

theorem parts_cases (combination : Combination) (expression : Expression) :
    (Exists fun expressions => expression = combination.of expressions) ∨
      combination.parts expression = [expression] := by
  cases combination with
  | sequence =>
    cases expression with
    | sequence items => exact Or.inl ⟨items, rfl⟩
    | _ => exact Or.inr rfl
  | choice =>
    cases expression with
    | choice alternatives => exact Or.inl ⟨alternatives, rfl⟩
    | _ => exact Or.inr rfl

theorem combine_eq (combination : Combination) (expressions : List Expression) :
    (Exists fun expression => expressions = [expression] ∧
      combination.combine expressions = expression) ∨
    (expressions.length ≠ 1 ∧ combination.combine expressions =
      combination.of (expressions.flatMap combination.parts)) := by
  rcases expressions with _ | ⟨first, _ | ⟨second, others⟩⟩
  · exact Or.inr ⟨by decide, rfl⟩
  · exact Or.inl ⟨first, rfl, rfl⟩
  · exact Or.inr ⟨by simp, rfl⟩

theorem parts_combine (combination : Combination) (expressions : List Expression) :
    combination.parts (combination.combine expressions) =
      expressions.flatMap combination.parts := by
  rcases combination.combine_eq expressions with ⟨expression, rfl, same⟩ | ⟨-, same⟩
  · rw [same, List.flatMap_cons, List.flatMap_nil, List.append_nil]
  · rw [same, parts_of]

end Combination

namespace Expression

variable {combination : Combination} {first second expression : Expression}
  {expressions : List Expression}

/-- Every compound at the root has at least two parts. -/
def IsProper (expression : Expression) : Prop :=
  forall (combination : Combination) expressions,
    expression = combination.of expressions -> 2 ≤ expressions.length

theorem IsProper.parts_ne_nil (proper : expression.IsProper) :
    combination.parts expression ≠ [] := by
  rcases combination.parts_cases expression with ⟨expressions, rfl⟩ | single
  · rw [combination.parts_of]
    rintro rfl
    exact absurd (proper combination [] rfl) (by decide)
  · rw [single]
    exact List.cons_ne_nil _ _

theorem length_le_parts (combination : Combination)
    (proper : forall expression, expression ∈ expressions -> expression.IsProper) :
    expressions.length ≤ (expressions.flatMap combination.parts).length := by
  induction expressions with
  | nil => exact Nat.le_refl 0
  | cons expression expressions inductionHypothesis =>
    have some : 0 < (combination.parts expression).length :=
      List.length_pos_iff.mpr (proper expression List.mem_cons_self).parts_ne_nil
    have others := inductionHypothesis fun other member =>
      proper other (List.mem_cons_of_mem expression member)
    rw [List.flatMap_cons, List.length_append, List.length_cons]
    omega

theorem isProper_combine (ne_nil : expressions ≠ [])
    (proper : forall expression, expression ∈ expressions -> expression.IsProper) :
    (combination.combine expressions).IsProper := by
  rcases combination.combine_eq expressions with ⟨expression, rfl, same⟩ | ⟨several, same⟩
  · rw [same]
    exact proper expression List.mem_cons_self
  · rw [same]
    intro other parts combined
    have parts_eq : parts = expressions.flatMap combination.parts := by
      cases combination <;> cases other <;> cases combined <;> rfl
    have each := length_le_parts combination proper
    have some : 0 < expressions.length := List.length_pos_iff.mpr ne_nil
    rw [parts_eq]
    omega

/-- An expression without one-part compounds at the root is known by its parts. -/
theorem IsProper.eq_of_parts_eq (combination : Combination) (proper : first.IsProper)
    (otherProper : second.IsProper)
    (same : combination.parts first = combination.parts second) : first = second := by
  rcases combination.parts_cases first with ⟨firsts, rfl⟩ | single
  · rw [combination.parts_of] at same
    have several := proper combination firsts rfl
    rcases combination.parts_cases second with ⟨seconds, rfl⟩ | otherSingle
    · rw [combination.parts_of] at same
      rw [same]
    · rw [same, otherSingle] at several
      exact absurd several (by simp)
  · rw [single] at same
    rcases combination.parts_cases second with ⟨seconds, rfl⟩ | otherSingle
    · have several := otherProper combination seconds rfl
      rw [combination.parts_of] at same
      rw [← same] at several
      exact absurd several (by simp)
    · rw [otherSingle] at same
      exact (List.cons.inj same).1

mutual

/-- An expression without what a listing does not show: sequences in sequences and choices in
choices are flat, sequences and choices of one part are this part, and every fixed text counts as an
operator. -/
def plain : Expression -> Expression
  | literal _ (some text) => op text
  | literal kind none => any kind
  | rule name => rule name
  | sequence items => Combination.sequence.combine (plainAll items)
  | choice alternatives => Combination.choice.combine (plainAll alternatives)
  | optional body => optional (plain body)
  | zeroOrMore body => zeroOrMore (plain body)
  | oneOrMore body => oneOrMore (plain body)
  | mock => mock

def plainAll : List Expression -> List Expression
  | [] => []
  | item :: items => plain item :: plainAll items

end

theorem plainAll_eq (expressions : List Expression) :
    plainAll expressions = expressions.map plain := by
  induction expressions with
  | nil => rfl
  | cons expression expressions inductionHypothesis =>
    rw [plainAll, inductionHypothesis, List.map_cons]

theorem isProper_of_not_isCompound
    (single : forall (combination : Combination) expressions,
      expression ≠ combination.of expressions) :
    expression.IsProper :=
  fun combination expressions same => absurd same (single combination expressions)

theorem isProper_plain (expression : Expression) (listable : expression.isListable = true) :
    expression.plain.IsProper := by
  have combined : forall (combination : Combination) (parts : List Expression),
      (forall part, part ∈ parts -> part.isListable = true -> part.plain.IsProper) ->
      (!parts.isEmpty && isListableAll parts) = true ->
      (combination.combine (plainAll parts)).IsProper := by
    intro combination parts inductionHypothesis listable
    rcases isListable_parts_iff.mp listable with ⟨ne_nil, listable⟩
    rw [plainAll_eq]
    refine isProper_combine (List.map_eq_nil_iff.not.mpr ne_nil) fun plain member => ?_
    rcases List.mem_map.mp member with ⟨part, listed, rfl⟩
    exact inductionHypothesis part listed (listable part listed)
  induction expression using Expression.induction with
  | literal kind text =>
    cases text <;> exact isProper_of_not_isCompound (by rintro (_ | _) expressions ⟨⟩)
  | sequence items inductionHypothesis =>
    exact combined .sequence items inductionHypothesis listable
  | choice alternatives inductionHypothesis =>
    exact combined .choice alternatives inductionHypothesis listable
  | _ => exact isProper_of_not_isCompound (by rintro (_ | _) expressions ⟨⟩)

end Expression
end Packrat
