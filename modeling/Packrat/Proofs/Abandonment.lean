import Packrat.Proofs.Trying

namespace Packrat

/-!
# What is abandoned has failed

A choice without alternatives fails without a test, and so does a refused call.  Where neither
occurs, an expression that does not match has a failed test at its place or beyond.  Hence a passed
test is never lost: either the match goes on behind it, or a test fails there.
-/

/-! ## Expressions without an empty choice -/

namespace Expression

mutual

def hasNoEmptyChoice : Expression -> Bool
  | literal _ _ => true
  | rule _ => true
  | sequence items => noneHasEmptyChoice items
  | choice alternatives => !alternatives.isEmpty && noneHasEmptyChoice alternatives
  | optional body => hasNoEmptyChoice body
  | zeroOrMore body => hasNoEmptyChoice body
  | oneOrMore body => hasNoEmptyChoice body
  | mock => true

def noneHasEmptyChoice : List Expression -> Bool
  | [] => true
  | item :: items => hasNoEmptyChoice item && noneHasEmptyChoice items

end

variable {item : Expression} {items : List Expression}

theorem hasNoEmptyChoice_sequence_cons
    (offers : (sequence (item :: items)).hasNoEmptyChoice = true) :
    item.hasNoEmptyChoice = true ∧ (sequence items).hasNoEmptyChoice = true :=
  Bool.and_eq_true_iff.mp offers

theorem hasNoEmptyChoice_choice_cons
    (offers : (choice (item :: items)).hasNoEmptyChoice = true) :
    item.hasNoEmptyChoice = true ∧ (items ≠ [] -> (choice items).hasNoEmptyChoice = true) := by
  simp only [hasNoEmptyChoice, noneHasEmptyChoice, Bool.and_eq_true, Bool.not_eq_true',
    List.isEmpty_eq_false_iff] at offers ⊢
  exact ⟨offers.2.1, fun some => ⟨some, offers.2.2⟩⟩

end Expression

/-! ## Failed tests in a log -/

namespace Log

variable {log first rest : Log} {before : Option Failure} {failure : Failure} {place next : Nat}

/-- A test at a place or beyond it failed. -/
def FailsFrom (place : Nat) (log : Log) : Prop :=
  Exists fun position => Exists fun rule => Exists fun expected =>
    .failed position rule expected ∈ log ∧ place ≤ position

theorem FailsFrom.earlier (fails : log.FailsFrom next) (before : place ≤ next) :
    log.FailsFrom place := by
  rcases fails with ⟨position, rule, expected, member, beyond⟩
  exact ⟨position, rule, expected, member, Nat.le_trans before beyond⟩

theorem FailsFrom.mono (fails : first.FailsFrom place) (subset : first ⊆ log) :
    log.FailsFrom place := by
  rcases fails with ⟨position, rule, expected, member, beyond⟩
  exact ⟨position, rule, expected, subset member, beyond⟩

theorem FailsFrom.append_right (fails : first.FailsFrom place) (rest : Log) :
    FailsFrom place (first ++ rest) :=
  fails.mono (List.subset_append_left _ _)

theorem FailsFrom.append_left (fails : rest.FailsFrom place) (first : Log) :
    FailsFrom place (first ++ rest) :=
  fails.mono (List.subset_append_right _ _)

theorem FailsFrom.furthest (fails : log.FailsFrom place) :
    Exists fun failure => log.furthest none = some failure := by
  rcases fails with ⟨position, rule, expected, member, -⟩
  rcases coveredBy_furthest member with ⟨failure, same, -⟩
  exact ⟨failure, same⟩

theorem FailsFrom.le_furthest (fails : log.FailsFrom place)
    (furthest : log.furthest none = some failure) : place ≤ failure.position := by
  rcases fails with ⟨position, rule, expected, member, beyond⟩
  rcases coveredBy_furthest member with ⟨other, same, further⟩
  cases furthest.symm.trans same
  omega

end Log

/-! ## Tests -/

namespace TokenTest

variable {tokens : Array Token} {question : TokenTest} {rule : String} {position : Nat}

theorem step?_of_passesAt (passes : question.passesAt tokens position = true) :
    question.step? tokens position = some ⟨position + 1, [.leaf position]⟩ := by
  rw [step?, if_pos passes]

theorem failsFrom_log (fails : question.step? tokens position = none) :
    (question.log tokens rule position).FailsFrom position := by
  unfold step? at fails
  split at fails
  · cases fails
  · rename_i failed
    rw [log, if_neg failed]
    exact ⟨position, rule, _, List.mem_singleton_self _, Nat.le_refl _⟩

end TokenTest

/-! ## Failed expressions and passed tests -/

namespace Matching

variable {grammar : Grammar} {tokens : Array Token} {active : List Frame} {rule : String}
  {expression : Expression} {position place : Nat} {answer : Answer} {log : Log}
  {question : TokenTest}

namespace Evaluates

variable {first : Step}

/-- What follows a matched first part fails for the whole, at its place or beyond. -/
theorem failsFrom_followedBy {item : Expression} {logAfter : Log}
    (matched : Evaluates grammar tokens active rule item position (.ok (some first)) log)
    (fails : answer = .ok none -> logAfter.FailsFrom first.next) :
    answer.map (Option.map first.followedBy) = .ok none ->
      Log.FailsFrom position (log ++ logAfter) := by
  intro failed
  rcases Answer.map_eq_ok failed with ⟨none | within, same, impossible⟩
  · exact ((fails same).earlier (matched.covers _ rfl).le_next).append_left _
  · cases impossible

/-- A failed expression has a failed test at its place or beyond, where no call is refused and no
choice is empty. -/
theorem failsFrom
    (offering : forall target, target ∈ grammar.rules -> target.effective.hasNoEmptyChoice = true)
    (evaluates : Evaluates grammar tokens active rule expression position answer log)
    (unrefused : log.refusals = 0) (offers : expression.hasNoEmptyChoice = true) :
    answer = .ok none -> log.FailsFrom position := by
  induction evaluates with
  | literal => exact fun fails => TokenTest.failsFrom_log (Except.ok.inj fails)
  | mock => exact fun fails => TokenTest.failsFrom_log (Except.ok.inj fails)
  | undefined => intro impossible; cases impossible
  | refused => cases unrefused
  | called found _ _ inductionHypothesis =>
    intro fails
    rcases Answer.map_eq_ok fails with ⟨none | within, same, impossible⟩
    · have inside := offering _ (Grammar.mem_rules_of_find? found).1
      exact (inductionHypothesis unrefused inside same).mono (List.subset_cons_self _ _)
    · cases impossible
  | sequenceNil => intro impossible; cases impossible
  | sequenceStops _ _ inductionHypothesis =>
    exact inductionHypothesis unrefused (Expression.hasNoEmptyChoice_sequence_cons offers).1
  | sequenceGoesOn item _ _ restHypothesis =>
    have unrefusedRest := (Log.refusals_append_eq_zero_iff.mp unrefused).2
    have offersRest := (Expression.hasNoEmptyChoice_sequence_cons offers).2
    exact item.failsFrom_followedBy (restHypothesis unrefusedRest offersRest)
  | choiceNil => cases offers
  | choiceStops _ stops _ => exact fun fails => absurd fails stops
  | choiceGoesOn _ _ firstHypothesis _ =>
    intro _
    have unrefusedFirst := (Log.refusals_append_eq_zero_iff.mp unrefused).1
    have offersFirst := (Expression.hasNoEmptyChoice_choice_cons offers).1
    exact (firstHypothesis unrefusedFirst offersFirst rfl).append_right _
  | optional | zeroOrMoreStops =>
    intro fails
    rcases Answer.map_eq_ok fails with ⟨before, -, impossible⟩
    cases impossible
  | oneOrMoreStops _ _ inductionHypothesis =>
    intro fails
    rcases Answer.map_eq_ok fails with ⟨none | within, same, impossible⟩
    · exact inductionHypothesis unrefused offers same
    · cases impossible
  | zeroOrMoreGoesOn body _ _ _ restHypothesis | oneOrMoreGoesOn body _ _ _ restHypothesis =>
    have unrefusedRest := (Log.refusals_append_eq_zero_iff.mp unrefused).2
    exact body.failsFrom_followedBy (restHypothesis unrefusedRest offers)

/-- What a passed test at a place leads to: the match goes on behind it, or a test fails there. -/
def Passed (place : Nat) (answer : Answer) (log : Log) : Prop :=
  forall result, answer = .ok result ->
    (Exists fun step => result = some step ∧ place < step.next) ∨ log.FailsFrom (place + 1)

/-- What was passed stays passed when the match is made into another one that ends no earlier. -/
theorem Passed.map {change : Option Step -> Option Step} (passed : Passed place answer log)
    (keeps : forall step, answer = .ok (some step) ->
      Exists fun changed => change (some step) = some changed ∧ step.next ≤ changed.next) :
    Passed place (answer.map change) log := by
  intro result matched
  rcases Answer.map_eq_ok matched with ⟨before, same, rfl⟩
  rcases passed before same with ⟨step, rfl, beyond⟩ | further
  · rcases keeps step same with ⟨changed, becomes, onward⟩
    exact Or.inl ⟨changed, becomes, Nat.lt_of_lt_of_le beyond onward⟩
  · exact Or.inr further

theorem Passed.mono {more : Log} (passed : Passed place answer log) (subset : log ⊆ more) :
    Passed place answer more := by
  intro result matched
  exact (passed result matched).imp_right (Log.FailsFrom.mono · subset)

/-- What was passed in a first part stays passed when the rest goes on from there or fails there. -/
theorem Passed.followedBy {logAfter : Log} (passed : Passed place (.ok (some first)) log)
    (forward : forall step, answer = .ok (some step) -> first.next ≤ step.next)
    (fails : answer = .ok none -> logAfter.FailsFrom first.next) :
    Passed place (answer.map (Option.map first.followedBy)) (log ++ logAfter) := by
  intro result matched
  rcases passed _ rfl with ⟨step, same, beyond⟩ | further
  · cases same
    rcases Answer.map_eq_ok matched with ⟨none | rest, same, rfl⟩
    · exact Or.inr (((fails same).earlier beyond).append_left _)
    · exact Or.inl ⟨_, rfl, Nat.lt_of_lt_of_le beyond (forward rest same)⟩
  · exact Or.inr (further.append_right _)

theorem Passed.after {logAfter : Log} (passed : Passed place answer logAfter) (first : Step)
    (log : Log) : Passed place (answer.map (Option.map first.followedBy)) (log ++ logAfter) :=
  (passed.map fun step _ => ⟨first.followedBy step, rfl, Nat.le_refl step.next⟩).mono
    (List.subset_append_right _ _)

/-- A passed test is passed, where no call is refused and no choice is empty: a part that is
abandoned behind it has failed there. -/
theorem passed
    (offering : forall target, target ∈ grammar.rules -> target.effective.hasNoEmptyChoice = true)
    (evaluates : Evaluates grammar tokens active rule expression position answer log)
    (unrefused : log.refusals = 0) (offers : expression.hasNoEmptyChoice = true)
    (tries : Tries grammar tokens active rule expression position question place)
    (passes : question.passesAt tokens place = true) : Passed place answer log := by
  induction evaluates with
  | literal =>
    rcases tries_literal_iff.mp tries with ⟨rfl, rfl⟩
    rintro result ⟨⟩
    exact Or.inl ⟨_, TokenTest.step?_of_passesAt passes, Nat.lt_succ_self _⟩
  | mock =>
    rcases tries_mock_iff.mp tries with ⟨rfl, rfl⟩
    rintro result ⟨⟩
    exact Or.inl ⟨_, TokenTest.step?_of_passesAt passes, Nat.lt_succ_self _⟩
  | undefined missing => exact absurd tries (not_tries_undefined missing)
  | refused => cases unrefused
  | @called _ _ name _ _ _ _ found absent inside inductionHypothesis =>
    rw [tries_rule_iff found absent] at tries
    have offersInside := offering _ (Grammar.mem_rules_of_find? found).1
    have passedInside := inductionHypothesis unrefused offersInside tries
    refine (passedInside.map fun step same => ⟨_, rfl, ?_⟩).mono (List.subset_cons_self _ _)
    exact Nat.le_of_eq ((inside.covers step same).under_next name).symm
  | sequenceNil => exact absurd tries not_tries_sequence_nil
  | sequenceStops item stops inductionHypothesis =>
    rw [item.tries_sequence_stop_iff stops] at tries
    exact inductionHypothesis unrefused (Expression.hasNoEmptyChoice_sequence_cons offers).1 tries
  | sequenceGoesOn item rest itemHypothesis restHypothesis =>
    rcases Log.refusals_append_eq_zero_iff.mp unrefused with ⟨unrefused, unrefusedRest⟩
    rcases Expression.hasNoEmptyChoice_sequence_cons offers with ⟨offers, offersRest⟩
    rcases item.tries_sequence_iff.mp tries with tries | tries
    · exact (itemHypothesis unrefused offers tries).followedBy
        (fun step same => (rest.covers step same).le_next)
        (rest.failsFrom offering unrefusedRest offersRest)
    · exact (restHypothesis unrefusedRest offersRest tries).after _ _
  | choiceNil => exact absurd tries not_tries_choice_nil
  | choiceStops first stops inductionHypothesis =>
    rw [first.tries_choice_stop_iff stops] at tries
    exact inductionHypothesis unrefused (Expression.hasNoEmptyChoice_choice_cons offers).1 tries
  | @choiceGoesOn _ _ _ alternatives _ _ _ _ first _ firstHypothesis restHypothesis =>
    rcases Log.refusals_append_eq_zero_iff.mp unrefused with ⟨unrefused, unrefusedRest⟩
    rcases Expression.hasNoEmptyChoice_choice_cons offers with ⟨offers, offersRest⟩
    rcases first.tries_choice_iff.mp tries with tries | tries
    · -- The first alternative failed, so what it passed is followed by a failed test.
      rcases firstHypothesis unrefused offers tries _ rfl with ⟨step, impossible, -⟩ | further
      · cases impossible
      · exact fun _ _ => Or.inr (further.append_right _)
    · have some : alternatives ≠ [] := by
        rintro rfl
        exact not_tries_choice_nil tries
      exact (restHypothesis unrefusedRest (offersRest some) tries).mono
        (List.subset_append_right _ _)
  | optional _ inductionHypothesis =>
    rw [tries_optional_iff] at tries
    exact (inductionHypothesis unrefused offers tries).map fun _ _ => ⟨_, rfl, Nat.le_refl _⟩
  | zeroOrMoreStops body stays inductionHypothesis =>
    rw [body.tries_zeroOrMore_stop_iff stays] at tries
    exact (inductionHypothesis unrefused offers tries).map fun step same =>
      ⟨_, rfl, Nat.le_of_eq (stays step same)⟩
  | oneOrMoreStops body stays inductionHypothesis =>
    rw [body.tries_oneOrMore_stop_iff stays] at tries
    exact (inductionHypothesis unrefused offers tries).map fun step same =>
      ⟨_, rfl, Nat.le_of_eq (stays step same)⟩
  | zeroOrMoreGoesOn body moves rest bodyHypothesis restHypothesis =>
    rcases Log.refusals_append_eq_zero_iff.mp unrefused with ⟨unrefused, unrefusedRest⟩
    rcases (body.tries_zeroOrMore_iff moves).mp tries with tries | tries
    · exact (bodyHypothesis unrefused offers tries).followedBy
        (fun step same => (rest.covers step same).le_next)
        (rest.failsFrom offering unrefusedRest offers)
    · exact (restHypothesis unrefusedRest offers tries).after _ _
  | oneOrMoreGoesOn body moves rest bodyHypothesis restHypothesis =>
    rcases Log.refusals_append_eq_zero_iff.mp unrefused with ⟨unrefused, unrefusedRest⟩
    rcases (body.tries_oneOrMore_iff moves).mp tries with tries | tries
    · exact (bodyHypothesis unrefused offers tries).followedBy
        (fun step same => (rest.covers step same).le_next)
        (rest.failsFrom offering unrefusedRest offers)
    · exact (restHypothesis unrefusedRest offers tries).after _ _

end Evaluates
end Matching
end Packrat
