import Packrat.Proofs.Nullability
import Packrat.Proofs.Ordering

namespace Packrat

/-!
# Nullable rules are exactly those that match no token

What matches without a token is nullable, as the analysis is closed.  The converse needs that the
nullable rules are the least closed set: a rule is nullable because the rules were found earlier
that its expression needs.  While these are matched the rule itself is active, but they were found
without it, so the refusal of a left-recursive call takes nothing from them.

It even follows that a nullable expression never fails, whatever tokens there are: behind the
alternatives that may fail there is always one that cannot.
-/

namespace Grammar

variable {grammar : Grammar} {name : String} {target : Rule} {round rounds : Nat}

/-! ## The round of a rule -/

theorem nullableWithin_mono (earlier : round ≤ rounds) :
    grammar.nullableWithin round ⊆ grammar.nullableWithin rounds := by
  induction earlier with
  | refl => exact List.Subset.refl _
  | step _ inductionHypothesis =>
    exact List.Subset.trans inductionHypothesis (grammar.nullableWithin_sublist _).subset

/-- A nullable rule was found in some round, and not in the one before. -/
theorem exists_round (listed : name ∈ grammar.nullableWithin rounds) :
    Exists fun round => round < rounds ∧ name ∉ grammar.nullableWithin round ∧
      name ∈ grammar.nullableWithin (round + 1) := by
  induction rounds with
  | zero => exact absurd listed List.not_mem_nil
  | succ rounds inductionHypothesis =>
    by_cases before : name ∈ grammar.nullableWithin rounds
    · rcases inductionHypothesis before with ⟨round, earlier, new, found⟩
      exact ⟨round, Nat.lt_succ_of_lt earlier, new, found⟩
    · exact ⟨rounds, Nat.lt_succ_self rounds, before, listed⟩

/-- The expression of a rule is nullable under the rules that were found before it. -/
theorem Ordered.isNullable_of_mem (ordered : grammar.Ordered)
    (found : grammar.find? name = some target)
    (listed : name ∈ grammar.nullableWithin (round + 1)) :
    target.effective.isNullable (grammar.nullableWithin round) = true := by
  rcases List.mem_map.mp listed with ⟨rule, member, rfl⟩
  rcases List.mem_filter.mp member with ⟨within, nullable⟩
  cases (ordered.find?_of_mem within).symm.trans found
  exact nullable

end Grammar

/-! ## Nullable expressions never fail -/

namespace Matching

variable {grammar : Grammar} {tokens : Array Token} {active : List Frame} {rule : String}
  {expression : Expression} {position : Nat} {answer : Answer} {log : Log}

/-- An expression that is nullable under the rules of a round matches, unless it meets an undefined
rule, when no rule of the round is being matched. -/
theorem Evaluates.matches_of_isNullable (ordered : grammar.Ordered)
    (evaluates : Evaluates grammar tokens active rule expression position answer log)
    (defined : forall error, answer ≠ .error error) (rounds : Nat)
    (nullable : expression.isNullable (grammar.nullableWithin rounds) = true)
    (apart : forall frame, frame ∈ active -> frame.rule ∉ grammar.nullableWithin rounds) :
    Exists fun step => answer = .ok (some step) := by
  induction evaluates generalizing rounds with
  | literal | mock => cases nullable
  | undefined => exact absurd rfl (defined _)
  | refused _ member =>
    rw [Expression.isNullable, List.contains_iff_mem] at nullable
    exact absurd nullable (apart _ member)
  | @called active _ name position _ _ _ found _ _ inductionHypothesis =>
    rw [Expression.isNullable, List.contains_iff_mem] at nullable
    rcases Grammar.exists_round nullable with ⟨round, earlier, new, listed⟩
    -- The rule joins the active ones, and none of them was found before it.
    have apart' : forall frame, frame ∈ ⟨name, position⟩ :: active ->
        frame.rule ∉ grammar.nullableWithin round := by
      intro frame member
      rcases List.mem_cons.mp member with rfl | member
      · exact new
      · exact fun listed =>
          apart frame member (Grammar.nullableWithin_mono (Nat.le_of_lt earlier) listed)
    rcases inductionHypothesis (Answer.ne_error_of_map defined) round
      (ordered.isNullable_of_mem found listed) apart' with ⟨step, rfl⟩
    exact ⟨_, rfl⟩
  | sequenceNil => exact ⟨_, rfl⟩
  | sequenceStops _ stops inductionHypothesis =>
    rw [Expression.isNullable, Expression.allNullable, Bool.and_eq_true_iff] at nullable
    exact inductionHypothesis defined rounds nullable.1 apart
  | sequenceGoesOn _ _ _ restHypothesis =>
    rw [Expression.isNullable, Expression.allNullable, Bool.and_eq_true_iff] at nullable
    rcases restHypothesis (Answer.ne_error_of_map defined) rounds nullable.2 apart with ⟨step, rfl⟩
    exact ⟨_, rfl⟩
  | choiceNil => cases nullable
  | @choiceStops _ _ _ _ _ answer _ _ stops =>
    rcases answer with error | none | step
    · exact absurd rfl (defined error)
    · exact absurd rfl stops
    · exact ⟨step, rfl⟩
  | choiceGoesOn _ _ firstHypothesis restHypothesis =>
    rw [Expression.isNullable, Expression.anyNullable, Bool.or_eq_true_iff] at nullable
    rcases nullable with first | rest
    · rcases firstHypothesis nofun rounds first apart with ⟨step, impossible⟩
      cases impossible
    · exact restHypothesis defined rounds rest apart
  | @optional _ _ _ _ answer _ _ _ | @zeroOrMoreStops _ _ _ _ answer _ _ _ _ =>
    rcases answer with error | step
    · exact absurd rfl (defined error)
    · exact ⟨_, rfl⟩
  | oneOrMoreStops _ _ inductionHypothesis =>
    rcases inductionHypothesis (Answer.ne_error_of_map defined) rounds nullable apart with
      ⟨step, rfl⟩
    exact ⟨_, rfl⟩
  | zeroOrMoreGoesOn _ _ _ _ restHypothesis | oneOrMoreGoesOn _ _ _ _ restHypothesis =>
    rcases restHypothesis (Answer.ne_error_of_map defined) rounds rfl apart with ⟨step, rfl⟩
    exact ⟨_, rfl⟩

end Matching

/-! ## Matchers -/

namespace Matcher

variable {matcher : Matcher} {rule : String} {start : Nat} {tree : Tree}

/-- A rule that has matched without a token is nullable. -/
theorem mem_nullableRules_of_consumed
    (matched : (matcher.matchRule rule start).1 = .ok (.success tree))
    (empty : tree.consumed = 0) : rule ∈ matcher.grammar.nullableRules := by
  rcases evaluates_of_success matched with ⟨log, evaluates⟩
  have stays : tree.step.next = start := by
    have covered := (evaluates.covers tree.step rfl).next_eq
    simp only [Tree.step, Tree.consumedByAll, empty] at covered ⊢
    exact covered.symm
  have nullable := evaluates.isNullable tree.step rfl stays
  rw [Expression.isNullable, List.contains_iff_mem] at nullable
  exact nullable

theorem consumed_eq_zero (matched : (matcher.matchRule rule start).1 = .ok (.success tree))
    (ends : matcher.tokens.size ≤ start) : tree.consumed = 0 := by
  rcases evaluates_of_success matched with ⟨log, evaluates⟩
  have covers := evaluates.covers tree.step rfl
  have covered := covers.next_eq
  have bound := covers.next_le
  simp only [Tree.step, Tree.consumedByAll] at covered bound
  omega

/-- A nullable rule from which no undefined rule can be reached matches everywhere. -/
theorem matches_of_mem_nullableRules (ordered : matcher.grammar.Ordered)
    (validated : matcher.grammar.validate rule = .ok ())
    (nullable : rule ∈ matcher.grammar.nullableRules) (start : Nat) :
    Exists fun tree => (matcher.matchRule rule start).1 = .ok (.success tree) := by
  rcases matcher.matchRule_evaluates rule start with ⟨result, log, evaluates, reports⟩
  have defined : forall error, result.map (Option.map Tree.step) ≠ .error error := by
    refine evaluates.ne_error (Grammar.complete_of_validate validated) fun name mentioned => ?_
    cases List.mem_singleton.mp mentioned
    exact .refl
  have listed : (Expression.rule rule).isNullable
      (matcher.grammar.nullableWithin matcher.grammar.size) = true :=
    List.contains_iff_mem.mpr nullable
  rcases evaluates.matches_of_isNullable ordered defined _ listed nofun with ⟨step, same⟩
  rcases result with error | none | tree
  · cases same
  · cases same
  · exact ⟨tree, reports⟩

end Matcher

namespace Grammar

/-- In every grammar that calls can make, left-recursive or with mocks, a validated rule is nullable
exactly when it matches the empty text, with or without a memory; a nullable rule then matches
everywhere.  And whatever matches without a token, anywhere in any text, is nullable. -/
theorem nullableRules_exact (run : List Change) (rule : String) :
    let grammar := ({} : Grammar).changes run
    (grammar.validate rule = .ok () -> forall (memoize : Bool) (session : Session),
      (rule ∈ grammar.nullableRules <-> Exists fun tree =>
        ((Matcher.mk grammar #[] memoize session).matchRule rule 0).1 = .ok (.success tree)) ∧
      (rule ∈ grammar.nullableRules -> forall (tokens : Array Token) (start : Nat),
        Exists fun tree => ((Matcher.mk grammar tokens memoize session).matchRule rule start).1 =
          .ok (.success tree))) ∧
    forall (tokens : Array Token) (memoize : Bool) (session : Session) (start : Nat) (tree : Tree),
      ((Matcher.mk grammar tokens memoize session).matchRule rule start).1 = .ok (.success tree) ->
        tree.consumed = 0 -> rule ∈ grammar.nullableRules := by
  intro grammar
  refine ⟨fun validated memoize session => ⟨⟨fun nullable => ?_, ?_⟩, ?_⟩, ?_⟩
  · exact Matcher.matches_of_mem_nullableRules (ordered_changes run) validated nullable 0
  · rintro ⟨tree, matched⟩
    have empty : tree.consumed = 0 := Matcher.consumed_eq_zero matched (Nat.le_refl 0)
    exact Matcher.mem_nullableRules_of_consumed matched empty
  · exact fun nullable tokens start =>
      Matcher.matches_of_mem_nullableRules (ordered_changes run) validated nullable start
  · exact fun tokens memoize session start tree matched empty =>
      Matcher.mem_nullableRules_of_consumed matched empty

/-- A left-recursive rule whose second alternative needs a rule that is found before it, and whose
first one begins with the rule itself; an alternative under a mock does not help. -/
theorem nullableRules_exact_left_recursive :
    let grammar := ({} : Grammar).changes
      [.define "a" (.choice [.sequence [.rule "a", .word "x"], .sequence [.rule "c", .rule "b"],
          .sequence [.rule "b", .oneOrMore (.rule "b")]]),
        .define "b" (.choice [.sequence [.rule "b", .rule "a"], .zeroOrMore (.rule "c")]),
        .define "c" (.sequence []), .mock "c"]
    grammar.validate "a" = .ok () ∧ grammar.nullableRules = ["a", "b"] ∧
      Exists fun tree => ((Matcher.mk grammar #[] false {}).matchRule "a" 0).1 =
        .ok (.success tree) := by
  intro grammar
  have validated : grammar.validate "a" = .ok () := by decide
  have rules : grammar.nullableRules = ["a", "b"] := by decide
  have nullable : "a" ∈ grammar.nullableRules := rules ▸ List.mem_cons_self
  refine ⟨validated, rules, ?_⟩
  exact (((nullableRules_exact _ "a").1 validated false {}).1).mp nullable

end Grammar
end Packrat
