import Packrat.Proofs.Nullability
import Packrat.Proofs.Trying

namespace Packrat

/-!
# The first token of a match

A match that consumes a token begins with one of a few tests.  They are collected from left to
right, past the nullable parts, with a table for the rules that are met; the table need not have all
rules, only those that are met, and it may say more than is needed.

What the tests tell also holds of a match that fails: it tries one of them, and if none of them
passes, it tries nothing further on.
-/

namespace Expression

mutual

/-- The tests with one of which an expression of a rule begins, if the table has the rules that are
asked for. -/
def firstTests? (nullable : List String) (starts : String -> Option (List TokenTest))
    (rule : String) : Expression -> Option (List TokenTest)
  | literal kind text => some [.literal kind text]
  | Expression.rule name => starts name
  | sequence items => firstTestsInOrder? nullable starts rule items
  | choice alternatives => firstTestsOfAll? nullable starts rule alternatives
  | optional body => firstTests? nullable starts rule body
  | zeroOrMore body => firstTests? nullable starts rule body
  | oneOrMore body => firstTests? nullable starts rule body
  | mock => some [.spelling rule]

def firstTestsInOrder? (nullable : List String) (starts : String -> Option (List TokenTest))
    (rule : String) : List Expression -> Option (List TokenTest)
  | [] => some []
  | item :: items =>
    (firstTests? nullable starts rule item).bind fun first =>
      if item.isNullable nullable then
        (firstTestsInOrder? nullable starts rule items).map (first ++ ·)
      else some first

def firstTestsOfAll? (nullable : List String) (starts : String -> Option (List TokenTest))
    (rule : String) : List Expression -> Option (List TokenTest)
  | [] => some []
  | item :: items =>
    (firstTests? nullable starts rule item).bind fun first =>
      (firstTestsOfAll? nullable starts rule items).map (first ++ ·)

end

variable {nullable : List String} {starts : String -> Option (List TokenTest)} {rule : String}
  {item : Expression} {items : List Expression} {tests : List TokenTest}

theorem firstTests?_sequence_cons
    (known : (sequence (item :: items)).firstTests? nullable starts rule = some tests) :
    Exists fun first => item.firstTests? nullable starts rule = some first ∧ first ⊆ tests ∧
      (item.isNullable nullable = true -> Exists fun later =>
        (sequence items).firstTests? nullable starts rule = some later ∧ later ⊆ tests) := by
  rw [firstTests?, firstTestsInOrder?] at known
  rcases Option.bind_eq_some_iff.mp known with ⟨first, here, known⟩
  refine ⟨first, here, ?_⟩
  by_cases empty : item.isNullable nullable = true
  · rw [if_pos empty] at known
    rcases Option.map_eq_some_iff.mp known with ⟨later, further, rfl⟩
    exact ⟨List.subset_append_left _ _, fun _ => ⟨later, further, List.subset_append_right _ _⟩⟩
  · rw [if_neg empty] at known
    cases known
    exact ⟨List.Subset.refl _, fun impossible => absurd impossible empty⟩

theorem firstTests?_choice_cons
    (known : (choice (item :: items)).firstTests? nullable starts rule = some tests) :
    Exists fun first => Exists fun later => item.firstTests? nullable starts rule = some first ∧
      (choice items).firstTests? nullable starts rule = some later ∧ first ⊆ tests ∧
        later ⊆ tests := by
  rw [firstTests?, firstTestsOfAll?] at known
  rcases Option.bind_eq_some_iff.mp known with ⟨first, here, known⟩
  rcases Option.map_eq_some_iff.mp known with ⟨later, further, rfl⟩
  exact ⟨first, later, here, further, List.subset_append_left _ _, List.subset_append_right _ _⟩

end Expression

/-- A table has tests for some rules of a grammar, at least those that the rules begin with. -/
def Grammar.StartsBy (grammar : Grammar) (starts : String -> Option (List TokenTest)) : Prop :=
  forall name target tests, grammar.find? name = some target -> starts name = some tests ->
    Exists fun found =>
      target.effective.firstTests? grammar.nullableRules starts name = some found ∧ found ⊆ tests

/-- One of some tests passes at a place. -/
def Begins (tokens : Array Token) (tests : List TokenTest) (place : Nat) : Prop :=
  Exists fun question => question ∈ tests ∧ question.passesAt tokens place = true

theorem Begins.mono {tokens : Array Token} {tests more : List TokenTest} {place : Nat}
    (begins : Begins tokens tests place) (subset : tests ⊆ more) : Begins tokens more place := by
  rcases begins with ⟨question, member, passes⟩
  exact ⟨question, subset member, passes⟩

theorem Begins.of_step? {tokens : Array Token} {question : TokenTest} {position : Nat} {step : Step}
    (passed : question.step? tokens position = some step) : Begins tokens [question] position := by
  refine ⟨question, List.mem_singleton_self _, ?_⟩
  unfold TokenTest.step? at passed
  split at passed
  · assumption
  · cases passed

namespace Matching

variable {grammar : Grammar} {starts : String -> Option (List TokenTest)} {tokens : Array Token}
  {active : List Frame} {rule : String} {expression : Expression} {position place : Nat}
  {answer : Answer} {log : Log} {tests : List TokenTest} {question : TokenTest}

/-- A match that consumes a token passes one of the first tests. -/
theorem Evaluates.begins (startsBy : grammar.StartsBy starts)
    (evaluates : Evaluates grammar tokens active rule expression position answer log)
    (known : expression.firstTests? grammar.nullableRules starts rule = some tests) :
    forall step, answer = .ok (some step) -> step.next ≠ position ->
      Begins tokens tests position := by
  induction evaluates generalizing tests with
  | literal | mock =>
    cases known
    exact fun step passed _ => .of_step? (Except.ok.inj passed)
  | undefined => exact nofun
  | refused => exact nofun
  | called found _ inside inductionHypothesis =>
    intro step matched moves
    rcases startsBy _ _ _ found known with ⟨tests', known', subset⟩
    rcases Answer.map_eq_some matched with ⟨within, same, rfl⟩
    rw [(inside.covers within same).under_next] at moves
    exact (inductionHypothesis known' within same moves).mono subset
  | sequenceNil =>
    intro step matched moves
    cases matched
    exact absurd rfl moves
  | sequenceStops _ stops _ => exact fun step matched => absurd matched (stops step)
  | @sequenceGoesOn _ _ _ _ position first _ _ _ item _ itemHypothesis restHypothesis =>
    intro step matched moves
    rcases Answer.map_eq_some matched with ⟨rest, same, rfl⟩
    rcases Expression.firstTests?_sequence_cons known with ⟨tests', known', subset, later⟩
    by_cases stays : first.next = position
    · rcases later (item.isNullable first rfl stays) with ⟨others, further, subset'⟩
      have begins := restHypothesis further rest same (stays.symm ▸ moves)
      exact stays ▸ begins.mono subset'
    · exact (itemHypothesis known' first rfl stays).mono subset
  | choiceNil => exact nofun
  | choiceStops _ _ inductionHypothesis =>
    intro step matched moves
    rcases Expression.firstTests?_choice_cons known with ⟨first, _, here, -, subset, -⟩
    exact (inductionHypothesis here step matched moves).mono subset
  | choiceGoesOn _ _ _ restHypothesis =>
    intro step matched moves
    rcases Expression.firstTests?_choice_cons known with ⟨_, later, -, further, -, subset⟩
    exact (restHypothesis further step matched moves).mono subset
  | @optional _ _ _ _ answer _ _ inductionHypothesis =>
    intro step matched moves
    rcases answer with error | none | found <;> cases matched
    · exact absurd rfl moves
    · exact inductionHypothesis known _ rfl moves
  | @zeroOrMoreStops _ _ _ _ answer =>
    intro step matched moves
    rcases answer with error | found <;> cases matched
    exact absurd rfl moves
  | oneOrMoreStops =>
    intro step matched moves
    rcases Answer.map_eq_some matched with ⟨_, -, rfl⟩
    exact absurd rfl moves
  | zeroOrMoreGoesOn _ forward _ bodyHypothesis _
  | oneOrMoreGoesOn _ forward _ bodyHypothesis _ =>
    exact fun _ _ _ => bodyHypothesis known _ rfl forward

theorem Tries.le (tries : Tries grammar tokens active rule expression position question place) :
    position ≤ place := by
  induction tries with
  | literal | mock => exact Nat.le_refl _
  | called _ _ _ inductionHypothesis | item _ inductionHypothesis
  | alternative _ inductionHypothesis | laterAlternative _ _ inductionHypothesis
  | optional _ inductionHypothesis | zeroOrMore _ inductionHypothesis
  | oneOrMore _ inductionHypothesis => exact inductionHypothesis
  | laterItem first _ inductionHypothesis | zeroOrMoreLater first _ _ inductionHypothesis
  | oneOrMoreLater first _ _ inductionHypothesis =>
    exact Nat.le_trans (first.covers _ rfl).le_next inductionHypothesis

/-- A match tries one of the first tests where it begins, and something else only after one of them
has passed. -/
theorem Tries.begins (startsBy : grammar.StartsBy starts)
    (tries : Tries grammar tokens active rule expression position question place)
    (known : expression.firstTests? grammar.nullableRules starts rule = some tests) :
    (place = position ∧ question ∈ tests) ∨ (position < place ∧ Begins tokens tests position) := by
  have widen : forall {place position : Nat} {question : TokenTest} {some tests : List TokenTest},
      some ⊆ tests ->
      (place = position ∧ question ∈ some) ∨ (position < place ∧ Begins tokens some position) ->
      (place = position ∧ question ∈ tests) ∨ (position < place ∧ Begins tokens tests position) :=
    fun subset => Or.imp (And.imp_right (subset ·)) (And.imp_right (·.mono subset))
  induction tries generalizing tests with
  | literal | mock =>
    cases known
    exact Or.inl ⟨rfl, List.mem_singleton_self _⟩
  | called found _ _ inductionHypothesis =>
    rcases startsBy _ _ _ found known with ⟨tests', known', subset⟩
    exact widen subset (inductionHypothesis known')
  | item _ inductionHypothesis =>
    rcases Expression.firstTests?_sequence_cons known with ⟨_, here, subset, -⟩
    exact widen subset (inductionHypothesis here)
  | @laterItem _ _ _ _ position first _ _ place item rest inductionHypothesis =>
    rcases Expression.firstTests?_sequence_cons known with ⟨_, here, subset, later⟩
    by_cases stays : first.next = position
    · rcases later (item.isNullable first rfl stays) with ⟨others, further, subset'⟩
      exact stays ▸ widen subset' (inductionHypothesis further)
    · have forward := (item.covers first rfl).le_next
      have behind := rest.le
      exact Or.inr ⟨by omega, (item.begins startsBy here first rfl stays).mono subset⟩
  | alternative _ inductionHypothesis =>
    rcases Expression.firstTests?_choice_cons known with ⟨_, _, here, -, subset, -⟩
    exact widen subset (inductionHypothesis here)
  | laterAlternative _ _ inductionHypothesis =>
    rcases Expression.firstTests?_choice_cons known with ⟨_, _, -, further, -, subset⟩
    exact widen subset (inductionHypothesis further)
  | optional _ inductionHypothesis | zeroOrMore _ inductionHypothesis
  | oneOrMore _ inductionHypothesis => exact inductionHypothesis known
  | zeroOrMoreLater body moves later _ | oneOrMoreLater body moves later _ =>
    have forward := (body.covers _ rfl).le_next
    have behind := later.le
    exact Or.inr ⟨by omega, body.begins startsBy known _ rfl moves⟩

end Matching
end Packrat
