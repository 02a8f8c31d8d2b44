import Mathlib.Data.List.Basic
import Packrat.Grammar.LeftCall
import Packrat.Proofs.Evaluation

namespace Packrat

/-!
# Nullable rules are those that can stay in place

The rounds of the nullability analysis only grow, and a round that adds no rule is the last one.
So the nullable rules are closed: every rule whose expression is nullable under them is one of
them.  Passes that add each rule in place end with the same rules.  From being closed alone it
follows that an expression which matches without going on is nullable, whatever calls are refused on
the way.
-/

/-! ## Growing sets of names -/

namespace Expression

variable {names more : List String}

mutual

/-- With more nullable rules, a nullable expression stays nullable. -/
theorem isNullable_mono (grows : names ⊆ more) : (expression : Expression) ->
    expression.isNullable names = true -> expression.isNullable more = true
  | literal _ _, nullable => nullable
  | rule name, nullable => by
    rw [isNullable, List.contains_iff_mem] at nullable ⊢
    exact grows nullable
  | sequence items, nullable => allNullable_mono grows items nullable
  | choice alternatives, nullable => anyNullable_mono grows alternatives nullable
  | optional _, _ => rfl
  | zeroOrMore _, _ => rfl
  | oneOrMore body, nullable => isNullable_mono grows body nullable
  | mock, nullable => nullable

theorem allNullable_mono (grows : names ⊆ more) : (items : List Expression) ->
    allNullable names items = true -> allNullable more items = true
  | [], _ => rfl
  | item :: items, nullable => by
    rw [allNullable, Bool.and_eq_true_iff] at nullable ⊢
    exact ⟨isNullable_mono grows item nullable.1, allNullable_mono grows items nullable.2⟩

theorem anyNullable_mono (grows : names ⊆ more) : (items : List Expression) ->
    anyNullable names items = true -> anyNullable more items = true
  | item :: items, nullable => by
    rw [anyNullable, Bool.or_eq_true_iff] at nullable ⊢
    exact nullable.imp (isNullable_mono grows item) (anyNullable_mono grows items)

end

end Expression

namespace Grammar

variable {grammar : Grammar} {names more : List String} {name : String} {target : Rule}

/-! ## The rounds come to an end -/

/-- The rules keep their order from round to round, so a larger round has the smaller one as a
sublist. -/
theorem nullableFrom_sublist (grows : names ⊆ more) :
    (grammar.nullableFrom names).Sublist (grammar.nullableFrom more) :=
  (List.monotone_filter_right grammar.rules fun rule =>
    rule.effective.isNullable_mono grows).map Rule.name

theorem nullableWithin_sublist (grammar : Grammar) (rounds : Nat) :
    (grammar.nullableWithin rounds).Sublist (grammar.nullableWithin (rounds + 1)) := by
  induction rounds with
  | zero => exact List.nil_sublist _
  | succ rounds inductionHypothesis => exact nullableFrom_sublist inductionHypothesis.subset

/-- Either the rounds have settled, or each of them has added a rule. -/
theorem nullableWithin_settled_or_lt (grammar : Grammar) (rounds : Nat) :
    grammar.nullableWithin (rounds + 1) = grammar.nullableWithin rounds ∨
      rounds < (grammar.nullableWithin (rounds + 1)).length := by
  induction rounds with
  | zero =>
    rcases Nat.eq_zero_or_pos (grammar.nullableWithin 1).length with none | some
    · exact Or.inl (List.length_eq_zero_iff.mp none)
    · exact Or.inr some
  | succ rounds inductionHypothesis =>
    rcases inductionHypothesis with settled | earlier
    · exact Or.inl (congrArg grammar.nullableFrom settled)
    · have grows := grammar.nullableWithin_sublist (rounds + 1)
      rcases Nat.eq_or_lt_of_le grows.length_le with same | more
      · exact Or.inl (grows.eq_of_length same).symm
      · exact Or.inr (by omega)

theorem nullableFrom_length_le : (grammar.nullableFrom names).length ≤ grammar.size := by
  rw [nullableFrom, List.length_map]
  exact List.length_filter_le _ _

/-- The nullable rules are closed under the analysis. -/
theorem nullableFrom_nullableRules :
    grammar.nullableFrom grammar.nullableRules = grammar.nullableRules := by
  rcases grammar.nullableWithin_settled_or_lt grammar.size with settled | more
  · exact settled
  · exact absurd nullableFrom_length_le (Nat.not_le_of_lt more)

theorem mem_nullableRules (found : grammar.find? name = some target)
    (nullable : target.effective.isNullable grammar.nullableRules = true) :
    name ∈ grammar.nullableRules := by
  rcases mem_rules_of_find? found with ⟨listed, rfl⟩
  rw [← nullableFrom_nullableRules]
  exact List.mem_map_of_mem (List.mem_filter.mpr ⟨listed, nullable⟩)

/-! ## The passes find the same rules -/

/-- A pass finds no rule that is not nullable. -/
theorem nullablePass_subset (sound : names ⊆ grammar.nullableRules) {rules : List Rule}
    (among : forall rule, rule ∈ rules -> rule ∈ grammar.rules) :
    nullablePass names rules ⊆ grammar.nullableRules := by
  induction rules generalizing names with
  | nil => exact sound
  | cons rule rules inductionHypothesis =>
    rw [List.forall_mem_cons] at among
    rw [nullablePass]
    split
    · rename_i found
      have nullable := rule.effective.isNullable_mono sound (Bool.and_eq_true_iff.mp found).2
      have listed : rule.name ∈ grammar.nullableRules := by
        rw [← nullableFrom_nullableRules]
        exact List.mem_map_of_mem (List.mem_filter.mpr ⟨among.1, nullable⟩)
      refine inductionHypothesis (List.append_subset.mpr ⟨sound, ?_⟩) among.2
      exact List.cons_subset.mpr ⟨listed, List.nil_subset _⟩
    · exact inductionHypothesis sound among.2

/-- A pass that finds no further rule has found every rule that is nullable under its names. -/
theorem mem_of_nullablePass {rules : List Rule}
    (settled : (nullablePass names rules).length = names.length) :
    forall rule, rule ∈ rules -> rule.effective.isNullable names = true -> rule.name ∈ names := by
  induction rules with
  | nil => exact fun _ impossible => nomatch impossible
  | cons rule rules inductionHypothesis =>
    rw [nullablePass] at settled
    split at settled
    · rcases exists_nullablePass (names ++ [rule.name]) rules with ⟨more, same⟩
      have size := congrArg List.length same
      simp only [List.length_append, List.length_singleton] at size
      omega
    · rename_i known
      refine List.forall_mem_cons.mpr ⟨fun nullable => ?_, inductionHypothesis settled⟩
      rw [nullable, Bool.and_true, Bool.not_eq_true, Bool.not_eq_false'] at known
      exact List.contains_iff_mem.mp known

/-- The rounds stay within names that no pass adds to. -/
theorem nullableWithin_subset
    (closed : forall rule, rule ∈ grammar.rules -> rule.effective.isNullable names = true ->
      rule.name ∈ names) (rounds : Nat) : grammar.nullableWithin rounds ⊆ names := by
  induction rounds with
  | zero => exact List.nil_subset _
  | succ rounds inductionHypothesis =>
    intro name listed
    rcases List.mem_map.mp listed with ⟨rule, found, rfl⟩
    rcases List.mem_filter.mp found with ⟨among, nullable⟩
    exact closed rule among (rule.effective.isNullable_mono inductionHypothesis nullable)

theorem mem_nullableInPlace_iff_of_subset (sound : names ⊆ grammar.nullableRules) :
    name ∈ grammar.nullableInPlace names <-> name ∈ grammar.nullableRules := by
  fun_induction nullableInPlace grammar names with
  | case1 names settled =>
    have closed := nullableWithin_subset (mem_of_nullablePass settled) grammar.size
    exact ⟨fun listed => sound listed, fun listed => closed listed⟩
  | case2 names _ inductionHypothesis =>
    exact inductionHypothesis (nullablePass_subset sound fun _ listed => listed)

/-- The passes in place find exactly the nullable rules. -/
theorem mem_nullableInPlace_iff :
    name ∈ grammar.nullableInPlace <-> name ∈ grammar.nullableRules :=
  mem_nullableInPlace_iff_of_subset (List.nil_subset _)

end Grammar

/-! ## Staying in place -/

variable {grammar : Grammar} {tokens : Array Token} {active : List Frame} {rule : String}
  {expression : Expression} {position : Nat} {answer : Answer} {log : Log}

/-- An expression that matches and stays in place is nullable. -/
theorem Matching.Evaluates.isNullable
    (evaluates : Evaluates grammar tokens active rule expression position answer log) :
    forall step, answer = .ok (some step) -> step.next = position ->
      expression.isNullable grammar.nullableRules = true := by
  induction evaluates with
  | literal =>
    intro step passed stays
    have moves := TokenTest.next_of_step? (Except.ok.inj passed)
    omega
  | mock =>
    intro step passed stays
    have moves := TokenTest.next_of_step? (Except.ok.inj passed)
    omega
  | undefined => intro step impossible; cases impossible
  | refused => intro step impossible; cases impossible
  | called found _ inside inductionHypothesis =>
    intro step matched stays
    rcases Answer.map_eq_some matched with ⟨within, same, rfl⟩
    rw [(inside.covers within same).under_next] at stays
    rw [Expression.isNullable, List.contains_iff_mem]
    exact Grammar.mem_nullableRules found (inductionHypothesis within same stays)
  | sequenceNil => intro step matched stays; rfl
  | sequenceStops _ stops _ =>
    intro step matched
    exact absurd matched (stops step)
  | sequenceGoesOn item items itemHypothesis restHypothesis =>
    intro step matched stays
    rcases Answer.map_eq_some matched with ⟨rest, same, rfl⟩
    -- Neither part goes back, so both of them stay.
    have forward := (item.covers _ rfl).le_next
    have onward := (items.covers rest same).le_next
    simp only [Step.followedBy] at stays
    rw [Expression.isNullable, Expression.allNullable, Bool.and_eq_true_iff]
    exact ⟨itemHypothesis _ rfl (by omega), restHypothesis rest same (by omega)⟩
  | choiceNil => intro step impossible; cases impossible
  | choiceStops _ _ inductionHypothesis =>
    intro step matched stays
    rw [Expression.isNullable, Expression.anyNullable, Bool.or_eq_true_iff]
    exact Or.inl (inductionHypothesis step matched stays)
  | choiceGoesOn _ _ _ restHypothesis =>
    intro step matched stays
    rw [Expression.isNullable, Expression.anyNullable, Bool.or_eq_true_iff]
    exact Or.inr (restHypothesis step matched stays)
  | optional => intro step matched stays; rfl
  | zeroOrMoreStops => intro step matched stays; rfl
  | zeroOrMoreGoesOn => intro step matched stays; rfl
  | oneOrMoreStops _ stays inductionHypothesis =>
    intro step matched _
    rcases Answer.map_eq_some matched with ⟨first, same, rfl⟩
    exact inductionHypothesis first same (stays first same)
  | oneOrMoreGoesOn body moves more =>
    intro step matched stays
    rcases Answer.map_eq_some matched with ⟨rest, same, rfl⟩
    have forward := (body.covers _ rfl).le_next
    have onward := (more.covers rest same).le_next
    simp only [Step.followedBy] at stays
    omega

end Packrat
