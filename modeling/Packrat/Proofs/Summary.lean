import Mathlib.Data.List.Induction
import Packrat.Proofs.Outcome

namespace Packrat

/-!
# A failure sums up all failed tests

A session keeps one furthest failure and no list of the tests that failed.  The evaluation without
a memory has this list in its log: also the tests that an optional part or a repetition passes
over, and those of alternatives that were given up.  The failure that a matcher reports is their
summary, and so is what it reports of a match that ends too early.

The summary is made of the tests at the largest place.  Which of them came first and which came
again depends on their order, so the induction takes one more test at the end of the list.
-/

/-- A token test that failed: its place, the rule that was being matched there, and the test in
words. -/
structure FailedTest where
  position : Nat
  rule : String
  expected : String
  deriving DecidableEq

/-- The failed test that an event is, if it is one. -/
def Event.failedTest? : Event -> Option FailedTest
  | failed position rule expected => some ⟨position, rule, expected⟩
  | _ => none

def Log.failedTests (log : Log) : List FailedTest :=
  log.filterMap Event.failedTest?

namespace FailedTest

/-- The tests at a place. -/
def allAt (tests : List FailedTest) (position : Nat) : List FailedTest :=
  tests.filter (·.position == position)

/-- The summary of failed tests: the largest place, the rule of the first test there, and what the
tests there expect, in the order in which it was first expected and each of it once. -/
structure Summary (tests : List FailedTest) (failure : Failure) : Prop where
  furthest : forall test, test ∈ tests -> test.position ≤ failure.position
  first : (allAt tests failure.position).head?.map rule = some failure.rule
  expected_eq : failure.expected = ((allAt tests failure.position).map expected).eraseDups

variable {tests : List FailedTest} {test : FailedTest} {failure other : Failure} {position : Nat}

theorem allAt_append_of_ne (elsewhere : test.position ≠ position) :
    allAt (tests ++ [test]) position = allAt tests position := by
  have skipped : [test].filter (·.position == position) = [] :=
    List.filter_cons_of_neg (by simpa using elsewhere)
  rw [allAt, List.filter_append, skipped, List.append_nil]
  rfl

theorem allAt_append_self :
    allAt (tests ++ [test]) test.position = allAt tests test.position ++ [test] := by
  have kept : [test].filter (·.position == test.position) = [test] :=
    List.filter_cons_of_pos (beq_self_eq_true _)
  rw [allAt, List.filter_append, kept]
  rfl

theorem eraseDups_snoc {texts : List String} {text : String} :
    (texts ++ [text]).eraseDups =
      if text ∈ texts then texts.eraseDups else texts.eraseDups ++ [text] := by
  rw [List.eraseDups_append, List.removeAll]
  by_cases known : text ∈ texts
  · rw [if_pos known, List.filter_cons_of_neg (by simp [known])]
    exact List.append_nil _
  · rw [if_neg known, List.filter_cons_of_pos (by simp [known])]
    rfl

namespace Summary

theorem exists_mem (summary : Summary tests failure) :
    Exists fun test => test ∈ tests ∧ test.position = failure.position := by
  rcases Option.map_eq_some_iff.mp summary.first with ⟨test, first, -⟩
  rcases List.mem_filter.mp (List.mem_of_head? first) with ⟨member, here⟩
  exact ⟨test, member, beq_iff_eq.mp here⟩

theorem ne_nil (summary : Summary tests failure) : tests ≠ [] := by
  rcases summary.exists_mem with ⟨test, member, -⟩
  exact List.ne_nil_of_mem member

theorem unique (summary : Summary tests failure) (again : Summary tests other) :
    failure = other := by
  have place : failure.position = other.position := by
    rcases summary.exists_mem with ⟨test, member, here⟩
    rcases again.exists_mem with ⟨test', member', here'⟩
    have := again.furthest test member
    have := summary.furthest test' member'
    omega
  have rules := summary.first
  have expectations := summary.expected_eq
  rw [place] at rules expectations
  rcases failure with ⟨position, rule, expected⟩
  rcases other with ⟨position', rule', expected'⟩
  cases place
  cases Option.some.inj (rules.symm.trans again.first)
  cases expectations.trans again.expected_eq.symm
  rfl

theorem beyond (further : forall other, other ∈ tests -> other.position < test.position) :
    Summary (tests ++ [test]) ⟨test.position, test.rule, [test.expected]⟩ := by
  have nowhere : allAt tests test.position = [] := by
    refine List.filter_eq_nil_iff.mpr fun other member here => ?_
    exact Nat.ne_of_lt (further other member) (beq_iff_eq.mp here)
  have alone : allAt (tests ++ [test]) test.position = [test] := by
    rw [allAt_append_self, nowhere]
    rfl
  refine ⟨fun other member => ?_, ?_, ?_⟩
  · rcases List.mem_append.mp member with earlier | last
    · exact Nat.le_of_lt (further other earlier)
    · cases List.mem_singleton.mp last
      exact Nat.le_refl _
  · rw [alone]
    rfl
  · rw [alone]
    rfl

theorem extend (summary : Summary tests failure) (test : FailedTest) :
    Summary (tests ++ [test])
      (Failure.extend (some failure) test.position test.rule test.expected) := by
  rw [Failure.extend]
  by_cases further : failure.position < test.position
  · rw [if_pos further]
    exact beyond fun other member => Nat.lt_of_le_of_lt (summary.furthest other member) further
  · rw [if_neg further]
    have bound : forall other, other ∈ tests ++ [test] -> other.position ≤ failure.position := by
      intro other member
      rcases List.mem_append.mp member with earlier | last
      · exact summary.furthest other earlier
      · cases List.mem_singleton.mp last
        exact Nat.le_of_not_lt further
    by_cases here : test.position = failure.position
    · -- The first test at the place stays the first one.
      have tests_at : allAt (tests ++ [test]) failure.position =
          allAt tests failure.position ++ [test] := here ▸ allAt_append_self
      have first :
          (allAt (tests ++ [test]) failure.position).head?.map rule = some failure.rule := by
        rcases Option.map_eq_some_iff.mp summary.first with ⟨known, head, same⟩
        rw [tests_at, List.head?_append, head, ← same]
        rfl
      have expected_eq : ((allAt (tests ++ [test]) failure.position).map expected).eraseDups =
          if test.expected ∈ failure.expected then failure.expected
          else failure.expected ++ [test.expected] := by
        rw [tests_at, List.map_append, summary.expected_eq]
        simp only [List.mem_eraseDups]
        exact eraseDups_snoc
      by_cases known : test.expected ∈ failure.expected
      · rw [if_neg (by simp [known])]
        rw [if_pos known] at expected_eq
        exact ⟨bound, first, expected_eq.symm⟩
      · rw [if_pos (by simp [here, known])]
        rw [if_neg known] at expected_eq
        exact ⟨bound, first, expected_eq.symm⟩
    · rw [if_neg (by simp [here])]
      refine ⟨bound, ?_, ?_⟩
      · rw [allAt_append_of_ne here]
        exact summary.first
      · rw [allAt_append_of_ne here]
        exact summary.expected_eq

end Summary
end FailedTest

/-! ## Logs -/

namespace Log

variable {log : Log} {failure : Failure}

/-- The furthest failure of a log is the summary of its failed tests, when there are any. -/
theorem furthest_summary (log : Log) :
    log.failedTests = [] ∧ log.furthest none = none ∨
      Exists fun failure => log.furthest none = some failure ∧
        FailedTest.Summary log.failedTests failure := by
  induction log using List.reverseRecOn with
  | nil => exact Or.inl ⟨rfl, rfl⟩
  | append_singleton log event inductionHypothesis =>
    have tests : failedTests (log ++ [event]) = failedTests log ++ event.failedTest?.toList := by
      rw [failedTests, List.filterMap_append]
      cases event <;> rfl
    have folded : furthest none (log ++ [event]) = event.noted (furthest none log) :=
      furthest_append
    cases event with
    | failed position rule expected =>
      refine Or.inr ⟨_, folded, ?_⟩
      rw [tests]
      rcases inductionHypothesis with ⟨none, unfailed⟩ | ⟨failure, some, summary⟩
      · rw [none, unfailed]
        exact FailedTest.Summary.beyond nofun
      · rw [some]
        exact summary.extend ⟨position, rule, expected⟩
    | entered frame | refused frame =>
      rw [tests, folded]
      simp only [Event.failedTest?, Event.noted, Option.toList_none, List.append_nil]
      exact inductionHypothesis

end Log

/-! ## Matchers -/

/-- The failed tests of the evaluation of a rule at a place. -/
def Matching.FailsTests (grammar : Grammar) (tokens : Array Token) (rule : String) (start : Nat)
    (tests : List FailedTest) : Prop :=
  Exists fun answer => Exists fun log =>
    Evaluates grammar tokens [] rule (.rule rule) start answer log ∧ tests = log.failedTests

namespace Matcher

open FailedTest (Summary)

variable {log : Log} {rule : String} {start stop : Nat} {failure : Failure}

/-- What a failed match reports is the summary of the failed tests, or says that the rule failed at
its beginning when no test did. -/
theorem reported_eq (reported : failure = (log.furthest none).getD ⟨start, rule, []⟩) :
    log.failedTests = [] ∧ failure = ⟨start, rule, []⟩ ∨ Summary log.failedTests failure := by
  rcases log.furthest_summary with ⟨none, unfailed⟩ | ⟨found, some, summary⟩
  · rw [unfailed] at reported
    exact Or.inl ⟨none, reported⟩
  · rw [some] at reported
    exact Or.inr (reported ▸ summary)

/-- What is reported of a match that ends too early is the summary of the failed tests if it is at
the end of the match, or says that the rule ended there, and the end of the file is expected. -/
theorem leftover_eq (log : Log) (rule : String) (stop : Nat) :
    Exists fun failure =>
      (Summary log.failedTests failure ∧ failure.position = stop ∨
        (forall other, Summary log.failedTests other -> other.position ≠ stop) ∧
          failure = ⟨stop, rule, []⟩) ∧
      leftover { furthest := log.furthest none } rule stop =
        ⟨stop, failure.rule, if "EOF" ∈ failure.expected then failure.expected
          else failure.expected ++ ["EOF"]⟩ := by
  have expecting : forall failure : Failure, failure.position = stop ->
      failure.expecting Token.Kind.endOfFile.name =
        ⟨stop, failure.rule, if "EOF" ∈ failure.expected then failure.expected
          else failure.expected ++ ["EOF"]⟩ := by
    rintro ⟨position, rule, expected⟩ rfl
    unfold Failure.expecting
    simp only [Token.Kind.name, List.contains_iff_mem]
    split <;> rfl
  rcases log.furthest_summary with ⟨none, unfailed⟩ | ⟨found, some, summary⟩
  · refine ⟨⟨stop, rule, []⟩, Or.inr ⟨fun other summary => absurd none summary.ne_nil, rfl⟩, ?_⟩
    rw [leftover, unfailed]
    exact expecting _ rfl
  · rw [leftover, some]
    by_cases here : found.position = stop
    · exact ⟨found, Or.inl ⟨summary, here⟩, by simp only [if_pos here]; exact expecting _ here⟩
    · refine ⟨⟨stop, rule, []⟩, Or.inr ⟨fun other again => ?_, rfl⟩, ?_⟩
      · exact summary.unique again ▸ here
      · simp only [if_neg here]
        exact expecting _ rfl

/-- A failure is the summary of the failed tests of the evaluation, which knows no memory: of a
match, and of a match of the whole input that ends before the file does.  There is one list of
failed tests for every match. -/
theorem failure_summarizes (matcher : Matcher) (rule : String) :
    (forall start, ExistsUnique fun tests =>
      Matching.FailsTests matcher.grammar matcher.tokens rule start tests) ∧
    (forall start tests, Matching.FailsTests matcher.grammar matcher.tokens rule start tests ->
      forall failure, (matcher.matchRule rule start).1 = .ok (.failure failure) ->
        tests = [] ∧ failure = ⟨start, rule, []⟩ ∨ Summary tests failure) ∧
    forall tests, Matching.FailsTests matcher.grammar matcher.tokens rule 0 tests ->
      forall tree, (matcher.matchRule rule 0).1 = .ok (.success tree) ->
        tree.stop < endOf matcher.tokens -> Exists fun failure =>
          (Summary tests failure ∧ failure.position = tree.stop ∨
            (forall other, Summary tests other -> other.position ≠ tree.stop) ∧
              failure = ⟨tree.stop, rule, []⟩) ∧
          (matcher.matchEntirely rule).1 = .ok (.failure ⟨tree.stop, failure.rule,
            if "EOF" ∈ failure.expected then failure.expected
            else failure.expected ++ ["EOF"]⟩) := by
  refine ⟨fun start => ?_, ?_, ?_⟩
  · rcases matcher.matchRule_evaluates rule start with ⟨result, log, evaluates, -⟩
    refine ⟨log.failedTests, ⟨_, log, evaluates, rfl⟩, ?_⟩
    rintro _ ⟨answer, other, again, rfl⟩
    rw [(evaluates.unique again).2]
  · rintro start _ ⟨answer, log, evaluates, rfl⟩ failure failed
    rcases matcher.matchRule_evaluates rule start with ⟨result, other, again, reports⟩
    cases (evaluates.unique again).2
    rw [failed] at reports
    rcases result with error | none | tree <;> cases reports
    exact reported_eq rfl
  · rintro _ ⟨answer, log, evaluates, rfl⟩ tree matched short
    rcases matcher.matchEntirely_evaluates rule with ⟨result, other, again, reports⟩
    rcases evaluates_of_success matched with ⟨log', evaluates'⟩
    cases (evaluates.unique again).2
    have same : result = .ok (some tree) := Tree.map_step_injective (again.unique evaluates').1
    rcases leftover_eq log rule tree.stop with ⟨failure, choice, left⟩
    refine ⟨failure, choice, ?_⟩
    rw [reports, same, reportEntirely, if_pos short, left]

/-- A refused call, and a test that fails in an optional part of another rule, fails again in the
last alternative and is listed once. -/
theorem failure_summarizes_repeated :
    let matcher : Matcher :=
      { grammar := ⟨[⟨"a", .choice [.rule "a", .sequence [.optional (.rule "b"), .word "x"],
          .word "y"], false⟩, ⟨"b", .word "y", false⟩], 0⟩
        tokens := #[] }
    let tests : List FailedTest := [⟨0, "b", "'y'"⟩, ⟨0, "a", "'x'"⟩, ⟨0, "a", "'y'"⟩]
    Matching.FailsTests matcher.grammar matcher.tokens "a" 0 tests ∧
      Summary tests ⟨0, "b", ["'y'", "'x'"]⟩ := by
  intro matcher tests
  let evaluates := Matching.Evaluates matcher.grammar matcher.tokens
  have absent : Frame.mk "b" 0 ∉ [Frame.mk "a" 0] := by decide
  have inner : evaluates [⟨"b", 0⟩, ⟨"a", 0⟩] "b" (.word "y") 0 (.ok none)
      [.failed 0 "b" "'y'"] := .literal
  have called : evaluates [⟨"a", 0⟩] "a" (.rule "b") 0 _ _ := .called rfl absent inner
  have word : evaluates [⟨"a", 0⟩] "a" (.sequence [.word "x"]) 0 (.ok none)
      [.failed 0 "a" "'x'"] := .sequenceStops .literal nofun
  have last : evaluates [⟨"a", 0⟩] "a" (.choice [.word "y"]) 0 (.ok none) _ :=
    .choiceGoesOn .literal .choiceNil
  have refused : evaluates [⟨"a", 0⟩] "a" (.rule "a") 0 (.ok none) [.refused ⟨"a", 0⟩] :=
    .refused rfl List.mem_cons_self
  have body := refused.choiceGoesOn ((called.optional.sequenceGoesOn word).choiceGoesOn last)
  have whole : evaluates [] "a" (.rule "a") 0 _ _ := .called rfl List.not_mem_nil body
  have fails : Matching.FailsTests matcher.grammar matcher.tokens "a" 0 tests :=
    ⟨_, _, whole, rfl⟩
  have failed : (matcher.matchRule "a" 0).1 = .ok (.failure ⟨0, "b", ["'y'", "'x'"]⟩) := by
    rcases matcher.matchRule_evaluates "a" 0 with ⟨result, log, again, reports⟩
    rcases again.unique whole with ⟨same, rfl⟩
    rcases result with error | none | tree <;> cases same
    exact reports
  refine ⟨fails, ?_⟩
  exact ((matcher.failure_summarizes "a").2.1 0 tests fails _ failed).resolve_left nofun

end Matcher
end Packrat
