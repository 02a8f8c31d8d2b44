import Packrat.Proofs.Abandonment
import Packrat.Proofs.LeftRecursion
import Packrat.Proofs.Outcome
import Packrat.Proofs.Validation

namespace Packrat

/-!
# What a failure says about the next token

A failure names a place and what was expected there.  In a failed match no test beyond this place
is tried, and none at it passes, because behind a passed test another one would have failed.  So a
text that agrees before the place, and passes none of the tests there either, fails in the same way.

A text that passes one of them cannot fail at the place or before it.  It would try the same tests
there, as the text that ends before the place does, and would have passed one.
-/

/-! ## The expectations of a log -/

namespace Log

variable {log : Log} {before : Option Failure} {failure : Failure}

/-- What is expected now was expected before, or by this event. -/
theorem expected_of_noted {event : Event} {text : String}
    (noted : event.noted before = some failure) (member : text ∈ failure.expected) :
    (Exists fun rule => event = .failed failure.position rule text) ∨
      Exists fun earlier => before = some earlier ∧ earlier.position = failure.position ∧
        text ∈ earlier.expected := by
  cases event with
  | failed position rule expected =>
    rcases before with - | earlier
    · cases noted
      cases List.mem_singleton.mp member
      exact Or.inl ⟨rule, rfl⟩
    · cases noted
      simp only [Failure.extend] at member ⊢
      split at member
      · rename_i beyond
        rw [if_pos beyond]
        cases List.mem_singleton.mp member
        exact Or.inl ⟨rule, rfl⟩
      · rename_i notBeyond
        rw [if_neg notBeyond]
        split at member
        · rename_i fresh
          rw [if_pos fresh]
          rcases List.mem_append.mp member with known | added
          · exact Or.inr ⟨earlier, rfl, rfl, known⟩
          · cases List.mem_singleton.mp added
            have same : position = earlier.position := by
              simpa using (Bool.and_eq_true_iff.mp fresh).1
            exact Or.inl ⟨rule, same ▸ rfl⟩
        · rename_i notFresh
          rw [if_neg notFresh]
          exact Or.inr ⟨earlier, rfl, rfl, member⟩
  | entered frame => exact Or.inr ⟨failure, noted, rfl, member⟩
  | refused frame => exact Or.inr ⟨failure, noted, rfl, member⟩

theorem failed_of_expected {text : String} (furthest : log.furthest before = some failure)
    (member : text ∈ failure.expected) :
    (Exists fun rule => .failed failure.position rule text ∈ log) ∨
      Exists fun earlier => before = some earlier ∧ earlier.position = failure.position ∧
        text ∈ earlier.expected := by
  induction log generalizing before with
  | nil => exact Or.inr ⟨failure, furthest, rfl, member⟩
  | cons event events inductionHypothesis =>
    rcases inductionHypothesis furthest with ⟨rule, later⟩ | ⟨middle, noted, place, known⟩
    · exact Or.inl ⟨rule, List.mem_cons_of_mem _ later⟩
    · rcases expected_of_noted noted known with ⟨rule, same⟩ | ⟨earlier, found, place', known'⟩
      · exact Or.inl ⟨rule, by rw [← place, same]; exact List.mem_cons_self⟩
      · exact Or.inr ⟨earlier, found, place'.trans place, known'⟩

/-- The furthest failure expects what the failed tests at its place describe. -/
theorem mem_expected_iff {text : String} (furthest : log.furthest none = some failure) :
    text ∈ failure.expected <->
      Exists fun rule => .failed failure.position rule text ∈ log := by
  constructor
  · intro member
    rcases failed_of_expected furthest member with failed | ⟨earlier, impossible, -⟩
    · exact failed
    · cases impossible
  · rintro ⟨rule, failed⟩
    rcases coveredBy_furthest failed with ⟨other, same, further⟩
    cases furthest.symm.trans same
    rcases further with beyond | ⟨-, member⟩
    · exact absurd beyond (Nat.lt_irrefl _)
    · exact member

end Log

namespace Matching

variable {grammar : Grammar} {tokens other : Array Token} {active : List Frame} {rule : String}
  {expression : Expression} {position place : Nat} {answer : Answer} {log : Log}
  {question : TokenTest} {text : String}

/-! ## Failed matches -/

/-- A call of a rule fails, and this is its furthest failure. -/
def Fails (grammar : Grammar) (tokens : Array Token) (root : String) (start : Nat)
    (failure : Failure) : Prop :=
  Exists fun log => Evaluates grammar tokens [] root (.rule root) start (.ok none) log ∧
    log.furthest none = some failure

namespace Fails

variable {root : String} {start : Nat} {failure further : Failure}

theorem unique (fails : Fails grammar tokens root start failure)
    (again : Fails grammar tokens root start further) : failure = further := by
  rcases fails with ⟨log, evaluates, furthest⟩
  rcases again with ⟨log', evaluates', furthest'⟩
  rcases evaluates.unique evaluates' with ⟨-, rfl⟩
  exact Option.some.inj (furthest.symm.trans furthest')

/-- What a failure expects are the tests that were tried at its place and failed. -/
theorem mem_expected_iff (fails : Fails grammar tokens root start failure) :
    text ∈ failure.expected <-> Exists fun question =>
      Tries grammar tokens [] root (.rule root) start question failure.position ∧
        question.passesAt tokens failure.position = false ∧ question.describe = text := by
  rcases fails with ⟨log, evaluates, furthest⟩
  exact (Log.mem_expected_iff furthest).trans evaluates.failed_mem_iff

/-- In a failed match no test is tried beyond the place of the failure, and none passes there. -/
theorem tries_before
    (offering : forall target, target ∈ grammar.rules -> target.effective.hasNoEmptyChoice = true)
    (acyclic : grammar.LeftAcyclic) (fails : Fails grammar tokens root start failure)
    (tries : Tries grammar tokens [] root (.rule root) start question place) :
    place < failure.position ∨
      place = failure.position ∧ question.passesAt tokens place = false := by
  rcases fails with ⟨log, evaluates, furthest⟩
  cases passes : question.passesAt tokens place with
  | true =>
    have unrefused := evaluates.unrefused acyclic .start
    rcases evaluates.passed offering unrefused rfl tries passes none rfl with
      ⟨step, impossible, -⟩ | beyond
    · cases impossible
    · exact Or.inl (beyond.le_furthest furthest)
  | false =>
    rcases evaluates.failed_mem_iff.mpr ⟨question, tries, passes, rfl⟩ with ⟨within, failed⟩
    have here : log.FailsFrom place := ⟨place, within, _, failed, Nat.le_refl _⟩
    rcases Nat.lt_or_eq_of_le (here.le_furthest furthest) with before | same
    · exact Or.inl before
    · exact Or.inr ⟨same, rfl⟩

/-- A text that agrees before the place of a failure and passes no test that was tried there fails
in the same way, and the same tests are tried in it. -/
theorem congr
    (offering : forall target, target ∈ grammar.rules -> target.effective.hasNoEmptyChoice = true)
    (acyclic : grammar.LeftAcyclic) (fails : Fails grammar tokens root start failure)
    (agree : forall place, place < failure.position -> other[place]? = tokens[place]?)
    (absent : forall question,
      Tries grammar tokens [] root (.rule root) start question failure.position ->
        question.passesAt other failure.position = false) :
    Fails grammar other root start failure ∧
      forall question place,
        Tries grammar other [] root (.rule root) start question place <->
          Tries grammar tokens [] root (.rule root) start question place := by
  rcases fails with ⟨log, evaluates, furthest⟩
  have alike : forall question place,
      Tries grammar tokens [] root (.rule root) start question place ->
        question.passesAt other place = question.passesAt tokens place := by
    intro question place tries
    rcases tries_before offering acyclic ⟨log, evaluates, furthest⟩ tries with
      before | ⟨rfl, fails⟩
    · exact TokenTest.passesAt_congr (agree place before)
    · rw [absent question tries, fails]
  rcases evaluates.congr alike with ⟨evaluates', same⟩
  exact ⟨⟨log, evaluates', furthest⟩, same⟩

/-- A text that agrees before the place of a failure and passes a test that was tried there does
not fail at that place or before it. -/
theorem lt_of_passes
    (offering : forall target, target ∈ grammar.rules -> target.effective.hasNoEmptyChoice = true)
    (acyclic : grammar.LeftAcyclic) (fails : Fails grammar tokens root start failure)
    (agree : forall place, place < failure.position -> other[place]? = tokens[place]?)
    (tries : Tries grammar tokens [] root (.rule root) start question failure.position)
    (passes : question.passesAt other failure.position = true)
    (again : Fails grammar other root start further) : failure.position < further.position := by
  rcases Nat.lt_trichotomy failure.position further.position with onward | same | back
  · exact onward
  · -- The text that ends before the place tries there what both of the others try.
    have shorter : forall place, place < failure.position ->
        (other.extract 0 failure.position)[place]? = other[place]? := by
      intro place before
      rw [Array.getElem?_extract, Nat.zero_add]
      split
      · rfl
      · exact (Array.getElem?_eq_none (by omega)).symm
    have ends : forall question : TokenTest,
        question.passesAt (other.extract 0 failure.position) failure.position = false := by
      intro question
      rw [TokenTest.passesAt, Array.getElem?_eq_none]
      · rfl
      · rw [Array.size_extract]
        omega
    have first := fails.congr offering acyclic
      (fun place before => (shorter place before).trans (agree place before))
      (fun question _ => ends question)
    have second := again.congr offering acyclic
      (fun place before => shorter place (same ▸ before)) (fun question _ => same ▸ ends question)
    have tried := (second.2 question _).mp ((first.2 question _).mpr tries)
    rcases again.tries_before offering acyclic tried with before | ⟨-, fails⟩
    · exact absurd before (Nat.not_lt_of_ge (Nat.le_of_eq same.symm))
    · rw [passes] at fails
      cases fails
  · -- The two texts agree at the earlier place too, so they would fail alike.
    have backwards := again.congr offering acyclic
      (fun place before => (agree place (Nat.lt_trans before back)).symm)
      (fun question tried => by
        rcases again.tries_before offering acyclic tried with before | ⟨-, fails⟩
        · exact absurd before (Nat.lt_irrefl _)
        · rw [← fails]
          exact TokenTest.passesAt_congr (agree _ back).symm)
    rw [fails.unique backwards.1] at back
    exact absurd back (Nat.lt_irrefl _)

end Fails
end Matching

/-! ## Matchers -/

namespace Matcher

/-- A matcher reports a failure exactly when its rule fails with it. -/
theorem matchRule_failure_iff (matcher : Matcher) (root : String) (start : Nat) (failure : Failure)
    (acyclic : matcher.grammar.LeftAcyclic)
    (offering : forall target, target ∈ matcher.grammar.rules ->
      target.effective.hasNoEmptyChoice = true) :
    (matcher.matchRule root start).1 = .ok (.failure failure) <->
      Matching.Fails matcher.grammar matcher.tokens root start failure := by
  rcases matcher.matchRule_evaluates root start with ⟨result, log, evaluates, reports⟩
  rw [reports]
  constructor
  · intro reported
    rcases result with error | none | tree <;> cases reported
    have unrefused := evaluates.unrefused acyclic .start
    rcases (evaluates.failsFrom offering unrefused rfl rfl).furthest with ⟨furthest, same⟩
    exact ⟨log, evaluates, by rw [same]; rfl⟩
  · rintro ⟨log', evaluates', furthest⟩
    rcases evaluates.unique evaluates' with ⟨same, rfl⟩
    rcases result with error | none | tree <;> cases same
    rw [report, furthest]
    rfl

/-- Failures are exact about what could come next, where a rule is validated, no rule is
left-recursive and no choice is empty.  A failure expects what the tests describe that were tried at
its place.  Every text that agrees before the place fails in the same way when it passes none of
these tests, or ends there; when it passes one of them, it matches or fails further on. -/
theorem failure_exact (matcher : Matcher) (root : String) (start : Nat) (failure : Failure)
    (validated : matcher.grammar.validate root = .ok ())
    (checked : matcher.grammar.checkLeftRecursion = .ok ())
    (offering : forall target, target ∈ matcher.grammar.rules ->
      target.effective.hasNoEmptyChoice = true)
    (failed : (matcher.matchRule root start).1 = .ok (.failure failure)) :
    (forall text, text ∈ failure.expected <-> Exists fun question =>
      Matching.Tries matcher.grammar matcher.tokens [] root (.rule root) start question
        failure.position ∧ question.describe = text) ∧
      forall other : Array Token,
        (forall place, place < failure.position -> other[place]? = matcher.tokens[place]?) ->
        ((forall question,
            Matching.Tries matcher.grammar matcher.tokens [] root (.rule root) start question
              failure.position -> question.passesAt other failure.position = false) ->
          ({ matcher with tokens := other }.matchRule root start).1 = .ok (.failure failure)) ∧
        ((Exists fun question =>
            Matching.Tries matcher.grammar matcher.tokens [] root (.rule root) start question
              failure.position ∧ question.passesAt other failure.position = true) ->
          (Exists fun tree =>
            ({ matcher with tokens := other }.matchRule root start).1 = .ok (.success tree)) ∨
          Exists fun further =>
            ({ matcher with tokens := other }.matchRule root start).1 = .ok (.failure further) ∧
              failure.position < further.position) := by
  have acyclic := Grammar.leftAcyclic_of_check checked
  have fails := (matcher.matchRule_failure_iff root start failure acyclic offering).mp failed
  refine ⟨fun text => fails.mem_expected_iff.trans ⟨?_, ?_⟩, fun other agree => ⟨?_, ?_⟩⟩
  · rintro ⟨question, tries, -, same⟩
    exact ⟨question, tries, same⟩
  · rintro ⟨question, tries, same⟩
    rcases fails.tries_before offering acyclic tries with impossible | ⟨-, unpassed⟩
    · exact absurd impossible (Nat.lt_irrefl _)
    · exact ⟨question, tries, unpassed, same⟩
  · intro absent
    exact (matchRule_failure_iff { matcher with tokens := other } root start failure acyclic
      offering).mpr (fails.congr offering acyclic agree absent).1
  · rintro ⟨question, tries, passes⟩
    rcases matchRule_ok { matcher with tokens := other } root start validated with
      ⟨tree | further, reported⟩
    · exact Or.inl ⟨tree, reported⟩
    · have again := (matchRule_failure_iff { matcher with tokens := other } root start further
        acyclic offering).mp reported
      exact Or.inr ⟨further, reported,
        fails.lt_of_passes offering acyclic agree tries passes again⟩

/-- An optional part that is missing, and a choice after it: all three of their tests are expected,
and a word that passes the second of them does not leave the failure where it was. -/
theorem failure_exact_after_option :
    let matcher : Matcher :=
      { grammar := ⟨[⟨"a", .sequence [.word "x", .optional (.op "("),
          .choice [.sequence [.word "y", .op ")"], .any .identifier]], false⟩], 0⟩
        tokens := #[⟨.keyword, "x", default, default⟩] }
    let longer : Array Token := matcher.tokens.push ⟨.keyword, "y", default, default⟩
    (matcher.matchRule "a" 0).1 = .ok (.failure ⟨1, "a", ["'('", "'y'", "NAME"]⟩) ∧
      ((Exists fun tree =>
          ({ matcher with tokens := longer }.matchRule "a" 0).1 = .ok (.success tree)) ∨
        Exists fun further =>
          ({ matcher with tokens := longer }.matchRule "a" 0).1 = .ok (.failure further) ∧
            1 < further.position) := by
  intro matcher longer
  have validated : matcher.grammar.validate "a" = .ok () := by decide
  have checked : matcher.grammar.checkLeftRecursion = .ok () := by decide
  have offering : forall target, target ∈ matcher.grammar.rules ->
      target.effective.hasNoEmptyChoice = true := by decide
  have failed : (matcher.matchRule "a" 0).1 =
      .ok (.failure ⟨1, "a", ["'('", "'y'", "NAME"]⟩) :=
    Matcher.matchRule_of_unremembered rfl
  have agree : forall place, place < 1 -> longer[place]? = matcher.tokens[place]? := by decide
  have tries : Matching.Tries matcher.grammar matcher.tokens [] "a" (.rule "a") 0
      (.literal .keyword (some "y")) 1 := by
    refine .called rfl List.not_mem_nil ?_
    refine .laterItem .literal (.laterItem (.optional .literal) ?_)
    exact .item (.alternative (.item .literal))
  have passes : (TokenTest.literal .keyword (some "y")).passesAt longer 1 = true := by decide
  have exact_at := matcher.failure_exact "a" 0 _ validated checked offering failed
  exact ⟨failed, (exact_at.2 longer agree).2 ⟨_, tries, passes⟩⟩

end Matcher
end Packrat
