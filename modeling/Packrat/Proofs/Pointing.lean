import Packrat.Proofs.Abandonment
import Packrat.Proofs.Barrier
import Packrat.Proofs.Layout
import Packrat.Proofs.Masks
import Packrat.Proofs.Reentry

namespace Packrat

/-!
# Failures of the built-in grammar point at a token

The last token of a stream is the end of the file.  In the built-in grammar one rule tests for it,
the rule of whole files, which no other rule mentions; and that rule tests nothing behind it.  So
all tests are about tokens of the stream.

A failure reports failed tests, unless there are none.  A match without a failed test has refused a
call or met a choice without alternatives, and the grammar has neither a left recursion nor such a
choice, whatever rules are mocked.  Hence every failure names a token, a rule and an expectation.
-/

/-! ## Failures that say something -/

/-- The failure is at one of a number of tokens and in a defined rule, and it expects something,
each thing once. -/
structure Failure.Informative (grammar : Grammar) (size : Nat) (failure : Failure) : Prop where
  inside : failure.position < size
  expects : failure.expected ≠ []
  once : failure.expected.Nodup
  defined : grammar.contains failure.rule = true

variable {grammar : Grammar} {tokens : Array Token} {active : List Frame} {rule : String}
  {expression : Expression} {position place size : Nat} {answer : Answer} {log : Log}
  {failure : Failure}

theorem nodup_snoc {expected : List String} {text : String} (once : expected.Nodup)
    (fresh : expected.contains text = false) : (expected ++ [text]).Nodup := by
  have added : (Expression.addNames expected [text]).Nodup := Expression.nodup_addNames once
  rw [Expression.addNames, List.foldl_cons, List.foldl_nil, Expression.addName,
    if_neg (Bool.eq_false_iff.mp fresh)] at added
  exact added

namespace Failure

/-- One more failed test at a token and in a defined rule keeps the furthest failure informative. -/
theorem Informative.extend {before : Option Failure} {text : String}
    (informative : forall failure, before = some failure -> failure.Informative grammar size)
    (inside : position < size) (defined : grammar.contains rule = true) :
    (Failure.extend before position rule text).Informative grammar size := by
  have fresh : Informative grammar size ⟨position, rule, [text]⟩ :=
    ⟨inside, List.cons_ne_nil _ _, List.pairwise_singleton _ _, defined⟩
  cases before with
  | none => exact fresh
  | some failure =>
    have known := informative failure rfl
    rw [Failure.extend]
    split
    · exact fresh
    · split
      · rename_i further
        simp only [Bool.and_eq_true, Bool.not_eq_true'] at further
        exact ⟨known.inside, List.append_ne_nil_of_right_ne_nil _ (List.cons_ne_nil _ _),
          nodup_snoc known.once further.2, known.defined⟩
      · exact known

/-- One more expectation is added to a failure that lists each of its expectations once. -/
theorem informative_expecting {text : String} (inside : failure.position < size)
    (once : failure.expected.Nodup) (defined : grammar.contains failure.rule = true) :
    (failure.expecting text).Informative grammar size := by
  rw [expecting]
  split
  · rename_i known
    rw [List.contains_iff_mem] at known
    exact ⟨inside, List.ne_nil_of_mem known, once, defined⟩
  · rename_i fresh
    exact ⟨inside, List.append_ne_nil_of_right_ne_nil _ (List.cons_ne_nil _ _),
      nodup_snoc once (Bool.eq_false_iff.mpr fresh), defined⟩

end Failure

namespace Log

/-- When every failed test is at a token and in a defined rule, the furthest failure is
informative. -/
theorem informative_furthest {before : Option Failure}
    (informative : forall failure, before = some failure -> failure.Informative grammar size)
    (failed : forall place within text, .failed place within text ∈ log ->
      place < size ∧ grammar.contains within = true) :
    forall failure, log.furthest before = some failure -> failure.Informative grammar size := by
  induction log generalizing before with
  | nil => exact informative
  | cons event log inductionHypothesis =>
    refine inductionHypothesis ?_ fun place within text member =>
      failed place within text (List.mem_cons_of_mem _ member)
    cases event with
    | failed place within text =>
      intro failure noted
      cases noted
      rcases failed place within text List.mem_cons_self with ⟨inside, defined⟩
      exact .extend informative inside defined
    | entered frame => exact informative
    | refused frame => exact informative

end Log

namespace TokenTest

theorem failed_within {question : TokenTest} {within text : String}
    (failed : .failed place within text ∈ question.log tokens rule position) : within = rule := by
  cases failed_of_mem_log failed
  rfl

end TokenTest

namespace Matching

/-- A failed test belongs to the rule where the evaluation begins or to a rule that was called. -/
theorem Evaluates.failed_within
    (evaluates : Evaluates grammar tokens active rule expression position answer log)
    {within text : String} (failed : .failed place within text ∈ log) :
    within = rule ∨ grammar.contains within = true := by
  induction evaluates with
  | literal | mock => exact Or.inl (TokenTest.failed_within failed)
  | undefined => cases failed
  | refused => cases List.mem_singleton.mp failed
  | called found _ _ inductionHypothesis =>
    rcases List.mem_cons.mp failed with impossible | inside
    · cases impossible
    · rcases inductionHypothesis inside with rfl | defined
      · exact Or.inr (Grammar.contains_of_found found)
      · exact Or.inr defined
  | sequenceNil | choiceNil => cases failed
  | sequenceStops _ _ inductionHypothesis | choiceStops _ _ inductionHypothesis
  | optional _ inductionHypothesis | zeroOrMoreStops _ _ inductionHypothesis
  | oneOrMoreStops _ _ inductionHypothesis => exact inductionHypothesis failed
  | sequenceGoesOn _ _ firstHypothesis restHypothesis
  | choiceGoesOn _ _ firstHypothesis restHypothesis
  | zeroOrMoreGoesOn _ _ _ firstHypothesis restHypothesis
  | oneOrMoreGoesOn _ _ _ firstHypothesis restHypothesis =>
    exact (List.mem_append.mp failed).elim firstHypothesis restHypothesis

end Matching

/-! ## The end of the file -/

/-- The tokens of some lines end with the end of the file. -/
theorem Offside.tokens_snoc {lines : Source.Lines} {levels : Offside} {logical : List Line}
    {stop : Nat} {tokens : List Token}
    (read : (Offside.tokens lines stop levels logical).1 = .ok tokens) :
    Exists fun front => Exists fun last => tokens = front ++ [last] ∧ last.kind = .endOfFile := by
  induction logical generalizing levels tokens with
  | nil =>
    cases read
    exact ⟨_, _, rfl, rfl⟩
  | cons line logical inductionHypothesis =>
    rcases tokens_cons read with ⟨-, following, rest, rfl⟩
    rcases inductionHypothesis rest with ⟨front, last, rfl, ends⟩
    exact ⟨_, last, (List.append_assoc _ _ _).symm, ends⟩

/-- A test of a kind other than the end of the file, or of a spelling, does not pass there. -/
def TokenTest.avoidsEnd : TokenTest -> Bool
  | literal kind _ => kind != .endOfFile
  | spelling _ => true

theorem TokenTest.fails_at_end {question : TokenTest} {token : Token}
    (found : tokens[place]? = some token) (ends : token.kind = .endOfFile)
    (avoids : question.avoidsEnd = true) : question.passesAt tokens place = false := by
  rw [passesAt, found, Option.any_some]
  cases question with
  | literal kind text =>
    have other : (token.kind == kind) = false := by
      rw [ends, beq_eq_false_iff_ne]
      exact (bne_iff_ne.mp avoids).symm
    rw [passes, other, Bool.false_and]
  | spelling name =>
    rw [passes, ends]
    rfl

/-- Behind a part that does not test for the end of the file, the expression makes one more test. -/
def Expression.testsLast (rule : String) : Expression -> Bool
  | sequence [front, literal _ _] => (front.tests rule).all TokenTest.avoidsEnd
  | _ => false

theorem Expression.exists_of_testsLast (tested : expression.testsLast rule = true) :
    Exists fun front => Exists fun kind => Exists fun text =>
      expression = .sequence [front, .literal kind text] ∧
        forall question, question ∈ front.tests rule -> question.avoidsEnd = true := by
  unfold testsLast at tested
  split at tested
  · rename_i front kind text
    exact ⟨front, kind, text, rfl, List.all_eq_true.mp tested⟩
  · cases tested

namespace BuiltIn

variable {names : List String} {mocked : Grammar}

/-- The rule of whole files tests for the end of the file behind all the rest, and no other rule
does.  No rule mentions the rule of whole files. -/
theorem tests_end {name : String} {definition : Expression}
    (member : (name, definition) ∈ BuiltIn.grammar.definitions) :
    (if name = "file_input" then definition.testsLast name = true
      else forall question, question ∈ definition.tests name -> question.avoidsEnd = true) ∧
      forall mentioned, mentioned ∈ definition.mentions -> mentioned ≠ "file_input" := by
  have all : (blockRules ++ statementRules ++ valueRules).all (fun entry =>
      (if entry.1 = "file_input" then entry.2.testsLast entry.1
        else (entry.2.tests entry.1).all TokenTest.avoidsEnd) &&
        entry.2.mentions.all (· != "file_input")) = true := by
    decide +kernel
  rcases Bool.and_eq_true_iff.mp
    (List.all_eq_true.mp all _ (mem_of_mem_definitions member)) with ⟨tests, mentions⟩
  constructor
  · split at tests
    · rename_i same
      rw [if_pos same]
      exact tests
    · rename_i other
      rw [if_neg other]
      exact List.all_eq_true.mp tests
  · exact fun mentioned listed => bne_iff_ne.mp (List.all_eq_true.mp mentions mentioned listed)

variable (mocks : BuiltIn.grammar.mockAll names = .ok mocked) {token : Token}
  (last : tokens[place]? = some token) (ends : token.kind = .endOfFile)
include mocks last ends

/-- The end of the file stops every rule but the one of whole files. -/
theorem stopsAt_end : mocked.StopsAt tokens (· ≠ "file_input") place := by
  have each : forall name definition, (name, definition) ∈ BuiltIn.grammar.definitions ->
      (name ≠ "file_input" -> definition.StopsAt tokens (· ≠ "file_input") place name) ∧
        (name ≠ "file_input" -> Expression.mock.StopsAt tokens (· ≠ "file_input") place name) := by
    intro name definition member
    rcases tests_end member with ⟨tests, mentions⟩
    constructor
    · intro other
      rw [if_neg other] at tests
      exact ⟨fun question asked => TokenTest.fails_at_end last ends (tests question asked),
        mentions⟩
    · refine fun _ => ⟨fun question asked => ?_, nofun⟩
      cases List.mem_singleton.mp asked
      exact TokenTest.fails_at_end last ends rfl
  intro name other target found
  rcases Grammar.mem_rules_of_find? found with ⟨listed, rfl⟩
  exact Grammar.effective_of_definitions (Grammar.definitions_mockAll mocks) each listed other

/-- The rule of whole files tests nothing behind the end of the file: its last test comes after a
part that is stopped there. -/
theorem tries_file_le_end
    (evaluates : Matching.Evaluates mocked tokens active "file_input" expression position answer
      log)
    (tested : expression.testsLast "file_input" = true)
    (mentions : forall name, name ∈ expression.mentions -> name ≠ "file_input")
    (before : position ≤ place) {question : TokenTest} {tried : Nat}
    (tries : Matching.Tries mocked tokens active "file_input" expression position question tried) :
    tried ≤ place := by
  rcases Expression.exists_of_testsLast tested with ⟨front, kind, text, rfl, avoids⟩
  have stopping := stopsAt_end mocks last ends
  have stops : front.StopsAt tokens (· ≠ "file_input") place "file_input" :=
    ⟨fun question asked => TokenTest.fails_at_end last ends (avoids question asked),
      fun name mentioned => mentions name (List.mem_append_left _ mentioned)⟩
  cases evaluates with
  | sequenceStops first stop =>
    exact (first.stopsAt stopping stops before).2 _ _
      ((first.tries_sequence_stop_iff stop).mp tries)
  | sequenceGoesOn first _ =>
    rcases first.stopsAt stopping stops before with ⟨next, tried⟩
    rcases first.tries_sequence_iff.mp tries with inFront | behind
    · exact tried _ _ inFront
    · cases behind with
      | item test =>
        rw [(Matching.tries_literal_iff.mp test).2]
        exact next _ rfl
      | laterItem _ impossible => exact absurd impossible Matching.not_tries_sequence_nil

/-- No match of a rule tests anything behind the end of the file. -/
theorem tries_le_end
    (evaluates : Matching.Evaluates mocked tokens [] rule (.rule rule) position answer log)
    (before : position ≤ place) {question : TokenTest} {tried : Nat}
    (tries : Matching.Tries mocked tokens [] rule (.rule rule) position question tried) :
    tried ≤ place := by
  by_cases whole : rule = "file_input"
  · subst whole
    cases evaluates with
    | undefined missing => exact absurd tries (Matching.not_tries_undefined missing)
    | refused _ member => cases member
    | @called _ _ _ _ target _ _ found absent inside =>
      rw [Matching.tries_rule_iff found absent] at tries
      rcases target.effective_eq_or with hidden | shown
      · rw [hidden, Matching.tries_mock_iff] at tries
        exact tries.2 ▸ before
      · rw [shown] at tries inside
        have defined := Grammar.mem_definitions found
        rw [Grammar.definitions_mockAll mocks] at defined
        rcases tests_end defined with ⟨tests, mentions⟩
        exact tries_file_le_end mocks last ends inside tests mentions before tries
  · have stops : (Expression.rule rule).StopsAt tokens (· ≠ "file_input") place rule := by
      refine ⟨nofun, fun name mentioned => ?_⟩
      cases List.mem_singleton.mp mentioned
      exact whole
    exact (evaluates.stopsAt (stopsAt_end mocks last ends) stops before).2 question tried tries

end BuiltIn

/-! ## Nothing fails without a test -/

namespace BuiltIn

variable {names : List String} {mocked : Grammar}
  (mocks : BuiltIn.grammar.mockAll names = .ok mocked)
include mocks

theorem offers {target : Rule} (listed : target ∈ mocked.rules) :
    target.effective.hasNoEmptyChoice = true := by
  have all : (blockRules ++ statementRules ++ valueRules).all
      (fun entry => entry.2.hasNoEmptyChoice) = true := by decide +kernel
  have each : forall name definition, (name, definition) ∈ BuiltIn.grammar.definitions ->
      definition.hasNoEmptyChoice = true ∧ Expression.mock.hasNoEmptyChoice = true :=
    fun _ _ member => ⟨List.all_eq_true.mp all _ (mem_of_mem_definitions member), rfl⟩
  exact Grammar.effective_of_definitions (Grammar.definitions_mockAll mocks) each listed

theorem leftAcyclic : mocked.LeftAcyclic := by
  have searched : BuiltIn.grammar.findLeftRecursion = none := by decide +kernel
  exact (Grammar.masks_mockAll mocks).leftAcyclic (Grammar.leftAcyclic_of_find searched)

theorem complete (defined : mocked.find? rule ≠ none) : mocked.Complete rule := by
  have all : (blockRules ++ statementRules ++ valueRules).all (fun entry =>
      entry.2.mentions.all fun name =>
        ((blockRules ++ statementRules ++ valueRules).map Prod.fst).contains name) = true := by
    decide +kernel
  refine Grammar.complete_of_definitions (Grammar.definitions_mockAll mocks) ?_ defined
  intro name definition member mentioned listed
  have here := List.all_eq_true.mp all _ (mem_of_mem_definitions member)
  have known := List.contains_iff_mem.mp (List.all_eq_true.mp here mentioned listed)
  exact Grammar.defineAll_defines (Or.inr known)

theorem failsFrom
    (evaluates : Matching.Evaluates mocked tokens [] rule (.rule rule) position (.ok none) log) :
    log.FailsFrom position :=
  evaluates.failsFrom (fun _ => offers mocks) (evaluates.unrefused (leftAcyclic mocks) .start) rfl
    rfl

end BuiltIn

/-! ## Failures of streams -/

theorem Token.last_of_stream {tabSize : Nat} {source : String} {tokens : List Token}
    (lexed : Token.stream tabSize source = .ok tokens) :
    Exists fun token => tokens.toArray[tokens.length - 1]? = some token ∧
      token.kind = .endOfFile ∧ 0 < tokens.length := by
  rcases offside_of_stream lexed with ⟨lexemes, -, read⟩
  rcases Offside.tokens_snoc read with ⟨front, last, rfl, ends⟩
  refine ⟨last, ?_, ends, ?_⟩ <;> simp

/-- A match that ends before the end of the file is an informative failure there, when its furthest
failure is informative. -/
theorem Matcher.informative_leftover {furthest : Option Failure}
    (informative : forall failure, furthest = some failure -> failure.Informative grammar size)
    (inside : position < size) (defined : grammar.contains rule = true) :
    (leftover { furthest } rule position).Informative grammar size := by
  have bare : (Failure.expecting ⟨position, rule, []⟩ Token.Kind.endOfFile.name).Informative
      grammar size :=
    Failure.informative_expecting inside List.nodup_nil defined
  unfold leftover
  cases furthest with
  | none => exact bare
  | some failure =>
    have known := informative failure rfl
    by_cases here : failure.position = position
    · simp only [if_pos here]
      exact Failure.informative_expecting known.inside known.once known.defined
    · simp only [if_neg here]
      exact bare

/-- Whatever rules of the built-in grammar are mocked, a match of one of its rules against the whole
of a source that can be lexed comes to an outcome.  If this is a failure, it is at a token of the
source and in a rule of the grammar, and it expects something there, each thing once. -/
theorem Matcher.matchEntirely_informative {tabSize : Nat} {source : String} {tokens : List Token}
    (lexed : Token.stream tabSize source = .ok tokens) {names : List String} {grammar : Grammar}
    (mocked : BuiltIn.grammar.mockAll names = .ok grammar) (memoize : Bool) (memory : Session)
    {rule : String} (defined : grammar.contains rule = true) :
    Exists fun outcome =>
      ((Matcher.mk grammar tokens.toArray memoize memory).matchEntirely rule).1 = .ok outcome ∧
        forall failure, outcome = .failure failure ->
          failure.position < tokens.length ∧ failure.expected ≠ [] ∧ failure.expected.Nodup ∧
            grammar.contains failure.rule = true := by
  rcases Token.last_of_stream lexed with ⟨last, found, ends, some⟩
  rcases (Matcher.mk grammar tokens.toArray memoize memory).matchEntirely_evaluates rule with
    ⟨result, log, evaluates, reports⟩
  have failed : forall place within text, .failed place within text ∈ log ->
      place < tokens.length ∧ grammar.contains within = true := by
    intro place within text member
    rcases evaluates.failed_mem_iff.mp ⟨within, member⟩ with ⟨question, tries, -, -⟩
    have inside := BuiltIn.tries_le_end mocked found ends evaluates (Nat.zero_le _) tries
    refine ⟨by omega, ?_⟩
    rcases evaluates.failed_within member with rfl | known
    · exact defined
    · exact known
  have furthest : forall failure, log.furthest none = Option.some failure ->
      failure.Informative grammar tokens.length := Log.informative_furthest nofun failed
  rw [reports]
  rcases result with error | none | tree
  · rcases evaluates.undefined_of_call with ⟨name, -, missing, reaches⟩
    have complete := BuiltIn.complete mocked
      (Option.isSome_iff_ne_none.mp (defined : (grammar.find? rule).isSome = true))
    exact absurd missing (complete.find?_ne_none reaches)
  · rcases (BuiltIn.failsFrom mocked evaluates).furthest with ⟨failure, same⟩
    refine ⟨.failure failure, ?_, fun other same' => ?_⟩
    · rw [reportEntirely, report, same]
      · rfl
      · intro tree impossible
        cases impossible
    · cases same'
      have known := furthest failure same
      exact ⟨known.inside, known.expects, known.once, known.defined⟩
  · by_cases early : tree.stop < endOf tokens.toArray
    · refine ⟨_, if_pos early, fun failure same => ?_⟩
      cases same
      have inside : tree.stop < tokens.length :=
        Nat.lt_of_lt_of_le early Array.findIdx_le_size
      have known := informative_leftover furthest inside defined
      exact ⟨known.inside, known.expects, known.once, known.defined⟩
    · refine ⟨_, if_neg early, fun failure same => ?_⟩
      cases same

/-- The failure that an outcome is, if it is one. -/
def Outcome.failure? : Outcome -> Option Failure
  | .success _ => none
  | .failure failure => some failure

/-- A match that ends before the second name, where another word could have continued it. -/
theorem Matcher.matchEntirely_informative_leftover :
    let grammar := BuiltIn.grammar.setMock "expr" true
    let failure : Failure := ⟨1, "import_as_name", ["'as'", "EOF"]⟩
    BuiltIn.grammar.mockAll ["expr"] = .ok grammar ∧ grammar.contains "import_as_name" = true ∧
      Exists fun tokens => Token.stream 4 "x y" = .ok tokens ∧
        ((Matcher.mk grammar tokens.toArray false {}).matchEntirely "import_as_name").1 =
          .ok (.failure failure) ∧ failure.position < tokens.length ∧ failure.expected.Nodup := by
  intro grammar failure
  have mocked : BuiltIn.grammar.mockAll ["expr"] = .ok grammar := by decide +kernel
  have defined : grammar.contains "import_as_name" = true := by decide +kernel
  have computed : (Token.stream 4 "x y").toOption.bind (fun tokens =>
      ((Matcher.mk grammar tokens.toArray false {}).matchEntirely "import_as_name").1.toOption.bind
        Outcome.failure?) = some failure := by decide +kernel
  cases lexed : Token.stream 4 "x y" with
  | error error =>
    rw [lexed] at computed
    cases computed
  | ok tokens =>
    rw [lexed] at computed
    rcases matchEntirely_informative lexed mocked false {} defined with
      ⟨outcome, matched, informative⟩
    simp only [Except.toOption, Option.bind_some, matched] at computed
    cases outcome with
    | success => cases computed
    | failure found =>
      cases computed
      rcases informative failure rfl with ⟨inside, -, once, -⟩
      exact ⟨mocked, defined, tokens, rfl, matched, inside, once⟩

end Packrat
