import Packrat.Proofs.Evaluation

namespace Packrat

/-!
# The tests that are tried

Matching looks at a text only through tests of single tokens.  The tests that an evaluation tries
are described part by part, as the evaluation goes through the expression.  Those that fail are the
ones in its log, and all of them together decide what is evaluated: a text that answers them alike
has the same answer and the same log, and the same tests are tried in it.
-/

namespace TokenTest

variable {tokens other : Array Token} {question : TokenTest} {rule : String} {position : Nat}

theorem step?_congr (same : question.passesAt other position = question.passesAt tokens position) :
    question.step? other position = question.step? tokens position := by
  rw [step?, step?, same]

theorem log_congr (same : question.passesAt other position = question.passesAt tokens position) :
    question.log other rule position = question.log tokens rule position := by
  rw [log, log, same]

theorem passesAt_congr (same : other[position]? = tokens[position]?) :
    question.passesAt other position = question.passesAt tokens position := by
  rw [passesAt, passesAt, same]

theorem failed_mem_log_iff {place : Nat} {text : String} :
    (Exists fun within => .failed place within text ∈ question.log tokens rule position) <->
      Exists fun tried => (tried = question ∧ place = position) ∧
        tried.passesAt tokens place = false ∧ tried.describe = text := by
  constructor
  · rintro ⟨within, failed⟩
    unfold log at failed
    split at failed
    · cases failed
    · rename_i fails
      cases List.mem_singleton.mp failed
      exact ⟨question, ⟨rfl, rfl⟩, Bool.eq_false_iff.mpr fails, rfl⟩
  · rintro ⟨tried, ⟨rfl, rfl⟩, fails, rfl⟩
    refine ⟨rule, ?_⟩
    rw [log, if_neg (Bool.eq_false_iff.mp fails)]
    exact List.mem_singleton_self _

end TokenTest

namespace Matching

/-- The tests that the evaluation of an expression of a rule at a place tries, each with the place
of its token.  A result that is given again from a memory stands for tests that were tried
before. -/
inductive Tries (grammar : Grammar) (tokens : Array Token) :
    List Frame -> String -> Expression -> Nat -> TokenTest -> Nat -> Prop
  | literal {active rule kind text position} :
      Tries grammar tokens active rule (.literal kind text) position (.literal kind text) position
  | mock {active rule position} :
      Tries grammar tokens active rule .mock position (.spelling rule) position
  | called {active rule name position target question place} :
      grammar.find? name = some target -> ⟨name, position⟩ ∉ active ->
      Tries grammar tokens (⟨name, position⟩ :: active) name target.effective position question
        place ->
      Tries grammar tokens active rule (.rule name) position question place
  | item {active rule item items position question place} :
      Tries grammar tokens active rule item position question place ->
      Tries grammar tokens active rule (.sequence (item :: items)) position question place
  | laterItem {active rule item items position first log question place} :
      Evaluates grammar tokens active rule item position (.ok (some first)) log ->
      Tries grammar tokens active rule (.sequence items) first.next question place ->
      Tries grammar tokens active rule (.sequence (item :: items)) position question place
  | alternative {active rule alternative alternatives position question place} :
      Tries grammar tokens active rule alternative position question place ->
      Tries grammar tokens active rule (.choice (alternative :: alternatives)) position question
        place
  | laterAlternative {active rule alternative alternatives position log question place} :
      Evaluates grammar tokens active rule alternative position (.ok none) log ->
      Tries grammar tokens active rule (.choice alternatives) position question place ->
      Tries grammar tokens active rule (.choice (alternative :: alternatives)) position question
        place
  | optional {active rule body position question place} :
      Tries grammar tokens active rule body position question place ->
      Tries grammar tokens active rule (.optional body) position question place
  | zeroOrMore {active rule body position question place} :
      Tries grammar tokens active rule body position question place ->
      Tries grammar tokens active rule (.zeroOrMore body) position question place
  | zeroOrMoreLater {active rule body position first log question place} :
      Evaluates grammar tokens active rule body position (.ok (some first)) log ->
      first.next ≠ position ->
      Tries grammar tokens active rule (.zeroOrMore body) first.next question place ->
      Tries grammar tokens active rule (.zeroOrMore body) position question place
  | oneOrMore {active rule body position question place} :
      Tries grammar tokens active rule body position question place ->
      Tries grammar tokens active rule (.oneOrMore body) position question place
  | oneOrMoreLater {active rule body position first log question place} :
      Evaluates grammar tokens active rule body position (.ok (some first)) log ->
      first.next ≠ position ->
      Tries grammar tokens active rule (.zeroOrMore body) first.next question place ->
      Tries grammar tokens active rule (.oneOrMore body) position question place

variable {grammar : Grammar} {tokens other : Array Token} {active : List Frame} {rule : String}
  {expression : Expression} {position place : Nat} {answer : Answer} {log : Log}
  {question : TokenTest} {text : String}

/-! ## What is tried where -/

theorem tries_literal_iff {kind : Token.Kind} {wanted : Option String} :
    Tries grammar tokens active rule (.literal kind wanted) position question place <->
      question = .literal kind wanted ∧ place = position := by
  constructor
  · intro tries
    cases tries
    exact ⟨rfl, rfl⟩
  · rintro ⟨rfl, rfl⟩
    exact .literal

theorem tries_mock_iff :
    Tries grammar tokens active rule .mock position question place <->
      question = .spelling rule ∧ place = position := by
  constructor
  · intro tries
    cases tries
    exact ⟨rfl, rfl⟩
  · rintro ⟨rfl, rfl⟩
    exact .mock

theorem not_tries_undefined {name : String} (missing : grammar.find? name = none) :
    ¬ Tries grammar tokens active rule (.rule name) position question place := by
  intro tries
  cases tries with
  | called found => rw [missing] at found; cases found

theorem not_tries_refused {name : String} (member : ⟨name, position⟩ ∈ active) :
    ¬ Tries grammar tokens active rule (.rule name) position question place := by
  intro tries
  cases tries with
  | called _ absent => exact absent member

theorem tries_rule_iff {name : String} {target : Rule} (found : grammar.find? name = some target)
    (absent : ⟨name, position⟩ ∉ active) :
    Tries grammar tokens active rule (.rule name) position question place <->
      Tries grammar tokens (⟨name, position⟩ :: active) name target.effective position question
        place := by
  constructor
  · intro tries
    cases tries with
    | called found' _ inside =>
      cases found.symm.trans found'
      exact inside
  · exact .called found absent

theorem not_tries_sequence_nil :
    ¬ Tries grammar tokens active rule (.sequence []) position question place :=
  nofun

theorem not_tries_choice_nil :
    ¬ Tries grammar tokens active rule (.choice []) position question place :=
  nofun

theorem tries_optional_iff {body : Expression} :
    Tries grammar tokens active rule (.optional body) position question place <->
      Tries grammar tokens active rule body position question place := by
  constructor
  · intro tries
    cases tries with
    | optional inside => exact inside
  · exact .optional

namespace Evaluates

variable {item alternative body : Expression} {items alternatives : List Expression} {first : Step}

theorem tries_sequence_stop_iff
    (evaluates : Evaluates grammar tokens active rule item position answer log)
    (stops : forall first, answer ≠ .ok (some first)) :
    Tries grammar tokens active rule (.sequence (item :: items)) position question place <->
      Tries grammar tokens active rule item position question place := by
  constructor
  · intro tries
    cases tries with
    | item inside => exact inside
    | laterItem again => exact absurd (evaluates.unique again).1 (stops _)
  · exact .item

theorem tries_sequence_iff
    (evaluates : Evaluates grammar tokens active rule item position (.ok (some first)) log) :
    Tries grammar tokens active rule (.sequence (item :: items)) position question place <->
      Tries grammar tokens active rule item position question place ∨
        Tries grammar tokens active rule (.sequence items) first.next question place := by
  constructor
  · intro tries
    cases tries with
    | item inside => exact Or.inl inside
    | laterItem again later =>
      cases (evaluates.unique again).1
      exact Or.inr later
  · exact fun tries => tries.elim .item (.laterItem evaluates)

theorem tries_choice_stop_iff
    (evaluates : Evaluates grammar tokens active rule alternative position answer log)
    (stops : answer ≠ .ok none) :
    Tries grammar tokens active rule (.choice (alternative :: alternatives)) position question
        place <->
      Tries grammar tokens active rule alternative position question place := by
  constructor
  · intro tries
    cases tries with
    | alternative inside => exact inside
    | laterAlternative again => exact absurd (evaluates.unique again).1 stops
  · exact .alternative

theorem tries_choice_iff
    (evaluates : Evaluates grammar tokens active rule alternative position (.ok none) log) :
    Tries grammar tokens active rule (.choice (alternative :: alternatives)) position question
        place <->
      Tries grammar tokens active rule alternative position question place ∨
        Tries grammar tokens active rule (.choice alternatives) position question place := by
  constructor
  · intro tries
    cases tries with
    | alternative inside => exact Or.inl inside
    | laterAlternative _ later => exact Or.inr later
  · exact fun tries => tries.elim .alternative (.laterAlternative evaluates)

theorem tries_zeroOrMore_stop_iff
    (evaluates : Evaluates grammar tokens active rule body position answer log)
    (stays : forall first, answer = .ok (some first) -> first.next = position) :
    Tries grammar tokens active rule (.zeroOrMore body) position question place <->
      Tries grammar tokens active rule body position question place := by
  constructor
  · intro tries
    cases tries with
    | zeroOrMore inside => exact inside
    | zeroOrMoreLater again moves => exact absurd (stays _ (evaluates.unique again).1) moves
  · exact .zeroOrMore

theorem tries_zeroOrMore_iff
    (evaluates : Evaluates grammar tokens active rule body position (.ok (some first)) log)
    (moves : first.next ≠ position) :
    Tries grammar tokens active rule (.zeroOrMore body) position question place <->
      Tries grammar tokens active rule body position question place ∨
        Tries grammar tokens active rule (.zeroOrMore body) first.next question place := by
  constructor
  · intro tries
    cases tries with
    | zeroOrMore inside => exact Or.inl inside
    | zeroOrMoreLater again _ later =>
      cases (evaluates.unique again).1
      exact Or.inr later
  · exact fun tries => tries.elim .zeroOrMore (.zeroOrMoreLater evaluates moves)

theorem tries_oneOrMore_stop_iff
    (evaluates : Evaluates grammar tokens active rule body position answer log)
    (stays : forall first, answer = .ok (some first) -> first.next = position) :
    Tries grammar tokens active rule (.oneOrMore body) position question place <->
      Tries grammar tokens active rule body position question place := by
  constructor
  · intro tries
    cases tries with
    | oneOrMore inside => exact inside
    | oneOrMoreLater again moves => exact absurd (stays _ (evaluates.unique again).1) moves
  · exact .oneOrMore

theorem tries_oneOrMore_iff
    (evaluates : Evaluates grammar tokens active rule body position (.ok (some first)) log)
    (moves : first.next ≠ position) :
    Tries grammar tokens active rule (.oneOrMore body) position question place <->
      Tries grammar tokens active rule body position question place ∨
        Tries grammar tokens active rule (.zeroOrMore body) first.next question place := by
  constructor
  · intro tries
    cases tries with
    | oneOrMore inside => exact Or.inl inside
    | oneOrMoreLater again _ later =>
      cases (evaluates.unique again).1
      exact Or.inr later
  · exact fun tries => tries.elim .oneOrMore (.oneOrMoreLater evaluates moves)

/-! ## The log tells which tests failed -/

/-- The failed tests of a log are the tests that were tried and failed. -/
theorem failed_mem_iff
    (evaluates : Evaluates grammar tokens active rule expression position answer log) :
    (Exists fun within => .failed place within text ∈ log) <->
      Exists fun question => Tries grammar tokens active rule expression position question place ∧
        question.passesAt tokens place = false ∧ question.describe = text := by
  induction evaluates with
  | literal => simp only [tries_literal_iff, TokenTest.failed_mem_log_iff]
  | mock => simp only [tries_mock_iff, TokenTest.failed_mem_log_iff]
  | undefined missing => simp [not_tries_undefined missing]
  | refused _ member => simp [not_tries_refused member]
  | called found absent _ inductionHypothesis =>
    simp [tries_rule_iff found absent, inductionHypothesis]
  | sequenceNil => simp [not_tries_sequence_nil]
  | sequenceStops item stops inductionHypothesis =>
    simp only [item.tries_sequence_stop_iff stops, inductionHypothesis]
  | sequenceGoesOn item _ itemHypothesis restHypothesis =>
    simp only [item.tries_sequence_iff, List.mem_append, exists_or, or_and_right, itemHypothesis,
      restHypothesis]
  | choiceNil => simp [not_tries_choice_nil]
  | choiceStops first stops inductionHypothesis =>
    simp only [first.tries_choice_stop_iff stops, inductionHypothesis]
  | choiceGoesOn first _ firstHypothesis restHypothesis =>
    simp only [first.tries_choice_iff, List.mem_append, exists_or, or_and_right, firstHypothesis,
      restHypothesis]
  | optional _ inductionHypothesis => simp only [tries_optional_iff, inductionHypothesis]
  | zeroOrMoreStops body stays inductionHypothesis =>
    simp only [body.tries_zeroOrMore_stop_iff stays, inductionHypothesis]
  | zeroOrMoreGoesOn body moves _ bodyHypothesis restHypothesis =>
    simp only [body.tries_zeroOrMore_iff moves, List.mem_append, exists_or, or_and_right,
      bodyHypothesis, restHypothesis]
  | oneOrMoreStops body stays inductionHypothesis =>
    simp only [body.tries_oneOrMore_stop_iff stays, inductionHypothesis]
  | oneOrMoreGoesOn body moves _ bodyHypothesis restHypothesis =>
    simp only [body.tries_oneOrMore_iff moves, List.mem_append, exists_or, or_and_right,
      bodyHypothesis, restHypothesis]

/-! ## Texts that answer the tests alike -/

/-- The tests that are tried decide what is evaluated, and also what else is tried. -/
theorem congr
    (evaluates : Evaluates grammar tokens active rule expression position answer log)
    (agree : forall question place,
      Tries grammar tokens active rule expression position question place ->
        question.passesAt other place = question.passesAt tokens place) :
    Evaluates grammar other active rule expression position answer log ∧
      forall question place,
        Tries grammar other active rule expression position question place <->
          Tries grammar tokens active rule expression position question place := by
  induction evaluates with
  | literal =>
    have same := agree _ _ .literal
    rw [← TokenTest.step?_congr same, ← TokenTest.log_congr same]
    exact ⟨.literal, fun _ _ => tries_literal_iff.trans tries_literal_iff.symm⟩
  | mock =>
    have same := agree _ _ .mock
    rw [← TokenTest.step?_congr same, ← TokenTest.log_congr same]
    exact ⟨.mock, fun _ _ => tries_mock_iff.trans tries_mock_iff.symm⟩
  | undefined missing =>
    refine ⟨.undefined missing, fun question place => ?_⟩
    simp only [not_tries_undefined missing]
  | refused found member =>
    refine ⟨.refused found member, fun question place => ?_⟩
    simp only [not_tries_refused member]
  | called found absent _ inductionHypothesis =>
    simp only [tries_rule_iff found absent] at agree ⊢
    rcases inductionHypothesis agree with ⟨inside, same⟩
    exact ⟨.called found absent inside, same⟩
  | sequenceNil =>
    refine ⟨.sequenceNil, fun question place => ?_⟩
    simp only [not_tries_sequence_nil]
  | sequenceStops item stops inductionHypothesis =>
    simp only [item.tries_sequence_stop_iff stops] at agree ⊢
    rcases inductionHypothesis agree with ⟨item', same⟩
    simp only [item'.tries_sequence_stop_iff stops]
    exact ⟨.sequenceStops item' stops, same⟩
  | sequenceGoesOn item _ itemHypothesis restHypothesis =>
    simp only [item.tries_sequence_iff, or_imp, forall_and] at agree ⊢
    rcases itemHypothesis agree.1 with ⟨item', same⟩
    rcases restHypothesis agree.2 with ⟨rest', same'⟩
    simp only [item'.tries_sequence_iff, same, same', implies_true, and_true]
    exact .sequenceGoesOn item' rest'
  | choiceNil =>
    refine ⟨.choiceNil, fun question place => ?_⟩
    simp only [not_tries_choice_nil]
  | choiceStops first stops inductionHypothesis =>
    simp only [first.tries_choice_stop_iff stops] at agree ⊢
    rcases inductionHypothesis agree with ⟨first', same⟩
    simp only [first'.tries_choice_stop_iff stops]
    exact ⟨.choiceStops first' stops, same⟩
  | choiceGoesOn first _ firstHypothesis restHypothesis =>
    simp only [first.tries_choice_iff, or_imp, forall_and] at agree ⊢
    rcases firstHypothesis agree.1 with ⟨first', same⟩
    rcases restHypothesis agree.2 with ⟨rest', same'⟩
    simp only [first'.tries_choice_iff, same, same', implies_true, and_true]
    exact .choiceGoesOn first' rest'
  | optional _ inductionHypothesis =>
    simp only [tries_optional_iff] at agree ⊢
    rcases inductionHypothesis agree with ⟨body', same⟩
    exact ⟨.optional body', same⟩
  | zeroOrMoreStops body stays inductionHypothesis =>
    simp only [body.tries_zeroOrMore_stop_iff stays] at agree ⊢
    rcases inductionHypothesis agree with ⟨body', same⟩
    simp only [body'.tries_zeroOrMore_stop_iff stays]
    exact ⟨.zeroOrMoreStops body' stays, same⟩
  | zeroOrMoreGoesOn body moves _ bodyHypothesis restHypothesis =>
    simp only [body.tries_zeroOrMore_iff moves, or_imp, forall_and] at agree ⊢
    rcases bodyHypothesis agree.1 with ⟨body', same⟩
    rcases restHypothesis agree.2 with ⟨rest', same'⟩
    simp only [body'.tries_zeroOrMore_iff moves, same, same', implies_true, and_true]
    exact .zeroOrMoreGoesOn body' moves rest'
  | oneOrMoreStops body stays inductionHypothesis =>
    simp only [body.tries_oneOrMore_stop_iff stays] at agree ⊢
    rcases inductionHypothesis agree with ⟨body', same⟩
    simp only [body'.tries_oneOrMore_stop_iff stays]
    exact ⟨.oneOrMoreStops body' stays, same⟩
  | oneOrMoreGoesOn body moves _ bodyHypothesis restHypothesis =>
    simp only [body.tries_oneOrMore_iff moves, or_imp, forall_and] at agree ⊢
    rcases bodyHypothesis agree.1 with ⟨body', same⟩
    rcases restHypothesis agree.2 with ⟨rest', same'⟩
    simp only [body'.tries_oneOrMore_iff moves, same, same', implies_true, and_true]
    exact .oneOrMoreGoesOn body' moves rest'

end Evaluates
end Matching
end Packrat
