import Packrat.Expression.Reference
import Packrat.Proofs.Trying

namespace Packrat

/-!
# Tokens that stop a match

A token that passes none of the tests of some rules, which mention only each other, stops every
match of these rules: the match may test the token, but it never gets behind it and tests nothing
beyond.
-/

namespace Expression

mutual

/-- The tests that an expression of a rule makes itself; the rules that it mentions make others. -/
def tests (rule : String) : Expression -> List TokenTest
  | literal kind text => [.literal kind text]
  | Expression.rule _ => []
  | sequence items => testsOfAll rule items
  | choice alternatives => testsOfAll rule alternatives
  | optional body => tests rule body
  | zeroOrMore body => tests rule body
  | oneOrMore body => tests rule body
  | mock => [.spelling rule]

def testsOfAll (rule : String) : List Expression -> List TokenTest
  | [] => []
  | item :: items => tests rule item ++ testsOfAll rule items

end

/-- The token at a place passes no test of an expression, and the rules that the expression mentions
are some given ones. -/
structure StopsAt (tokens : Array Token) (among : String -> Prop) (place : Nat) (rule : String)
    (expression : Expression) : Prop where
  fails : forall question, question ∈ expression.tests rule ->
    question.passesAt tokens place = false
  mentions : forall name, name ∈ expression.mentions -> among name

namespace StopsAt

variable {tokens : Array Token} {among : String -> Prop} {place : Nat} {rule : String}
  {item : Expression} {items : List Expression}

theorem sequence_cons (stops : StopsAt tokens among place rule (.sequence (item :: items))) :
    StopsAt tokens among place rule item ∧ StopsAt tokens among place rule (.sequence items) :=
  ⟨⟨fun question member => stops.fails question (List.mem_append_left _ member),
      fun name member => stops.mentions name (List.mem_append_left _ member)⟩,
    ⟨fun question member => stops.fails question (List.mem_append_right _ member),
      fun name member => stops.mentions name (List.mem_append_right _ member)⟩⟩

theorem choice_cons (stops : StopsAt tokens among place rule (.choice (item :: items))) :
    StopsAt tokens among place rule item ∧ StopsAt tokens among place rule (.choice items) :=
  ⟨⟨fun question member => stops.fails question (List.mem_append_left _ member),
      fun name member => stops.mentions name (List.mem_append_left _ member)⟩,
    ⟨fun question member => stops.fails question (List.mem_append_right _ member),
      fun name member => stops.mentions name (List.mem_append_right _ member)⟩⟩

end StopsAt
end Expression

/-- The expressions of some rules are stopped at a place and mention only rules among them. -/
def Grammar.StopsAt (grammar : Grammar) (tokens : Array Token) (among : String -> Prop)
    (place : Nat) : Prop :=
  forall name, among name -> forall target, grammar.find? name = some target ->
    target.effective.StopsAt tokens among place name

namespace Matching

variable {grammar : Grammar} {tokens : Array Token} {among : String -> Prop}
  {active : List Frame} {rule : String} {expression : Expression} {position place : Nat}
  {answer : Answer} {log : Log}

theorem next_le_of_step? {question : TokenTest} {step : Step}
    (passed : question.step? tokens position = some step) (before : position ≤ place)
    (fails : question.passesAt tokens place = false) : step.next ≤ place := by
  rw [TokenTest.next_of_step? passed]
  refine Nat.lt_of_le_of_ne before fun same => ?_
  subst same
  rw [TokenTest.step?, fails] at passed
  cases passed

/-- Before a place that stops it, an expression matches up to the place at most and tries no test
beyond it. -/
theorem Evaluates.stopsAt (stopping : grammar.StopsAt tokens among place)
    (evaluates : Evaluates grammar tokens active rule expression position answer log)
    (stops : expression.StopsAt tokens among place rule) (before : position ≤ place) :
    (forall step, answer = .ok (some step) -> step.next ≤ place) ∧
      forall question tried, Tries grammar tokens active rule expression position question tried ->
        tried ≤ place := by
  induction evaluates with
  | literal =>
    refine ⟨fun step passed => ?_, fun question tried tries => ?_⟩
    · exact next_le_of_step? (Except.ok.inj passed) before
        (stops.fails _ (List.mem_singleton_self _))
    · rw [(tries_literal_iff.mp tries).2]
      exact before
  | mock =>
    refine ⟨fun step passed => ?_, fun question tried tries => ?_⟩
    · exact next_le_of_step? (Except.ok.inj passed) before
        (stops.fails _ (List.mem_singleton_self _))
    · rw [(tries_mock_iff.mp tries).2]
      exact before
  | undefined missing => exact ⟨nofun, fun _ _ tries => absurd tries (not_tries_undefined missing)⟩
  | refused _ member => exact ⟨nofun, fun _ _ tries => absurd tries (not_tries_refused member)⟩
  | called found absent inside inductionHypothesis =>
    have known := stops.mentions _ (List.mem_singleton_self _)
    rcases inductionHypothesis (stopping _ known _ found) before with ⟨ends, tried⟩
    refine ⟨fun step matched => ?_, fun question at' tries => ?_⟩
    · rcases Answer.map_eq_some matched with ⟨within, same, rfl⟩
      rw [(inside.covers within same).under_next]
      exact ends within same
    · exact tried _ _ ((tries_rule_iff found absent).mp tries)
  | sequenceNil =>
    refine ⟨fun step matched => ?_, fun _ _ tries => absurd tries not_tries_sequence_nil⟩
    cases matched
    exact before
  | sequenceStops item stop inductionHypothesis =>
    rcases inductionHypothesis stops.sequence_cons.1 before with ⟨-, tried⟩
    refine ⟨fun step matched => absurd matched (stop step), fun question at' tries => ?_⟩
    exact tried _ _ ((item.tries_sequence_stop_iff stop).mp tries)
  | sequenceGoesOn item _ itemHypothesis restHypothesis =>
    rcases itemHypothesis stops.sequence_cons.1 before with ⟨ends, tried⟩
    rcases restHypothesis stops.sequence_cons.2 (ends _ rfl) with ⟨endsRest, triedRest⟩
    refine ⟨fun step matched => ?_, fun question at' tries => ?_⟩
    · rcases Answer.map_eq_some matched with ⟨within, same, rfl⟩
      exact endsRest within same
    · exact (item.tries_sequence_iff.mp tries).elim (tried _ _) (triedRest _ _)
  | choiceNil => exact ⟨nofun, fun _ _ tries => absurd tries not_tries_choice_nil⟩
  | choiceStops first stop inductionHypothesis =>
    rcases inductionHypothesis stops.choice_cons.1 before with ⟨ends, tried⟩
    exact ⟨ends, fun _ _ tries => tried _ _ ((first.tries_choice_stop_iff stop).mp tries)⟩
  | choiceGoesOn first _ firstHypothesis restHypothesis =>
    rcases firstHypothesis stops.choice_cons.1 before with ⟨-, tried⟩
    rcases restHypothesis stops.choice_cons.2 before with ⟨ends, triedRest⟩
    exact ⟨ends, fun _ _ tries =>
      (first.tries_choice_iff.mp tries).elim (tried _ _) (triedRest _ _)⟩
  | @optional _ _ _ _ answer _ _ inductionHypothesis =>
    rcases inductionHypothesis ⟨stops.fails, stops.mentions⟩ before with ⟨ends, tried⟩
    refine ⟨fun step matched => ?_, fun _ _ tries => tried _ _ (tries_optional_iff.mp tries)⟩
    rcases answer with error | none | found <;> cases matched
    · exact before
    · exact ends _ rfl
  | @zeroOrMoreStops _ _ _ _ answer _ body stays inductionHypothesis =>
    rcases inductionHypothesis ⟨stops.fails, stops.mentions⟩ before with ⟨-, tried⟩
    refine ⟨fun step matched => ?_, fun _ _ tries => ?_⟩
    · rcases answer with error | found <;> cases matched
      exact before
    · exact tried _ _ ((body.tries_zeroOrMore_stop_iff stays).mp tries)
  | zeroOrMoreGoesOn body moves _ bodyHypothesis restHypothesis =>
    rcases bodyHypothesis ⟨stops.fails, stops.mentions⟩ before with ⟨ends, tried⟩
    rcases restHypothesis stops (ends _ rfl) with ⟨endsRest, triedRest⟩
    refine ⟨fun step matched => ?_, fun _ _ tries => ?_⟩
    · rcases Answer.map_eq_some matched with ⟨within, same, rfl⟩
      exact endsRest within same
    · exact ((body.tries_zeroOrMore_iff moves).mp tries).elim (tried _ _) (triedRest _ _)
  | oneOrMoreStops body stays inductionHypothesis =>
    rcases inductionHypothesis ⟨stops.fails, stops.mentions⟩ before with ⟨-, tried⟩
    refine ⟨fun step matched => ?_, fun _ _ tries => ?_⟩
    · rcases Answer.map_eq_some matched with ⟨within, -, rfl⟩
      exact before
    · exact tried _ _ ((body.tries_oneOrMore_stop_iff stays).mp tries)
  | oneOrMoreGoesOn body moves _ bodyHypothesis restHypothesis =>
    rcases bodyHypothesis ⟨stops.fails, stops.mentions⟩ before with ⟨ends, tried⟩
    rcases restHypothesis ⟨stops.fails, stops.mentions⟩ (ends _ rfl) with ⟨endsRest, triedRest⟩
    refine ⟨fun step matched => ?_, fun _ _ tries => ?_⟩
    · rcases Answer.map_eq_some matched with ⟨within, same, rfl⟩
      exact endsRest within same
    · exact ((body.tries_oneOrMore_iff moves).mp tries).elim (tried _ _) (triedRest _ _)

end Matching
end Packrat
