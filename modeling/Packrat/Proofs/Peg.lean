import Packrat.Proofs.LeftRecursion
import Packrat.Proofs.Outcome
import Packrat.Proofs.Validation

namespace Packrat

/-!
# Parsing expressions

The reference semantics of expressions, with neither a memory nor active frames.  A derivation says
what an expression of a rule comes to at a place: a step, or no match.  There is no derivation for
an undefined rule or for a left recursion.

A matcher of a grammar in which nothing undefined can be reached and no rule is left-recursive
reports exactly what is derived.
-/

/-! ## Tests of tokens -/

/-- A token is of a kind and, if a text is asked for, has this text. -/
def Token.IsLiteral (kind : Token.Kind) (text : Option String) (token : Token) : Prop :=
  token.kind = kind ∧ forall spelling, text = some spelling -> token.text = spelling

/-- A token of the source spells the name of a rule as it is or in upper case. -/
def Token.Spells (rule : String) (token : Token) : Prop :=
  token.kind.isSynthetic = false ∧ (token.text = rule ∨ token.text = Text.upperCase rule)

namespace TokenTest

theorem passes_literal_iff {kind : Token.Kind} {text : Option String} {token : Token} :
    (literal kind text).passes token = true <-> token.IsLiteral kind text := by
  cases text with
  | none => simp [passes, Token.IsLiteral]
  | some spelling =>
    simp only [passes, Token.IsLiteral, Option.all_some, Bool.and_eq_true, beq_iff_eq]
    constructor
    · rintro ⟨kind_eq, rfl⟩
      exact ⟨kind_eq, fun _ same => Option.some.inj same⟩
    · exact fun passed => ⟨passed.1, (passed.2 spelling rfl).symm⟩

theorem passes_spelling_iff {rule : String} {token : Token} :
    (spelling rule).passes token = true <-> token.Spells rule := by
  simp [passes, Token.Spells]

end TokenTest

/-! ## The reference semantics -/

/-- What an expression of a rule comes to at a place. -/
inductive Peg (grammar : Grammar) (tokens : Array Token) :
    String -> Expression -> Nat -> Option Step -> Prop
  | literal {rule kind text position token} :
      tokens[position]? = some token -> token.IsLiteral kind text ->
      Peg grammar tokens rule (.literal kind text) position
        (some ⟨position + 1, [.leaf position]⟩)
  | literalFails {rule kind text position} :
      (forall token, tokens[position]? = some token -> ¬ token.IsLiteral kind text) ->
      Peg grammar tokens rule (.literal kind text) position none
  | mock {rule position token} :
      tokens[position]? = some token -> token.Spells rule ->
      Peg grammar tokens rule .mock position (some ⟨position + 1, [.leaf position]⟩)
  | mockFails {rule position} :
      (forall token, tokens[position]? = some token -> ¬ token.Spells rule) ->
      Peg grammar tokens rule .mock position none
  | rule {rule name position target inside} :
      grammar.find? name = some target ->
      Peg grammar tokens name target.effective position (some inside) ->
      Peg grammar tokens rule (.rule name) position
        (some ⟨inside.next, [.node name position (inside.next - position) inside.nodes]⟩)
  | ruleFails {rule name position target} :
      grammar.find? name = some target ->
      Peg grammar tokens name target.effective position none ->
      Peg grammar tokens rule (.rule name) position none
  | sequenceNil {rule position} :
      Peg grammar tokens rule (.sequence []) position (some ⟨position, []⟩)
  | sequenceCons {rule item items position first rest} :
      Peg grammar tokens rule item position (some first) ->
      Peg grammar tokens rule (.sequence items) first.next (some rest) ->
      Peg grammar tokens rule (.sequence (item :: items)) position
        (some ⟨rest.next, first.nodes ++ rest.nodes⟩)
  | sequenceFails {rule item items position} :
      Peg grammar tokens rule item position none ->
      Peg grammar tokens rule (.sequence (item :: items)) position none
  | sequenceFailsLater {rule item items position first} :
      Peg grammar tokens rule item position (some first) ->
      Peg grammar tokens rule (.sequence items) first.next none ->
      Peg grammar tokens rule (.sequence (item :: items)) position none
  | choiceNil {rule position} :
      Peg grammar tokens rule (.choice []) position none
  | choiceFirst {rule alternative alternatives position step} :
      Peg grammar tokens rule alternative position (some step) ->
      Peg grammar tokens rule (.choice (alternative :: alternatives)) position (some step)
  | choiceNext {rule alternative alternatives position result} :
      Peg grammar tokens rule alternative position none ->
      Peg grammar tokens rule (.choice alternatives) position result ->
      Peg grammar tokens rule (.choice (alternative :: alternatives)) position result
  | optionalSome {rule body position step} :
      Peg grammar tokens rule body position (some step) ->
      Peg grammar tokens rule (.optional body) position (some step)
  | optionalNone {rule body position} :
      Peg grammar tokens rule body position none ->
      Peg grammar tokens rule (.optional body) position (some ⟨position, []⟩)
  | zeroOrMoreEnds {rule body position} :
      Peg grammar tokens rule body position none ->
      Peg grammar tokens rule (.zeroOrMore body) position (some ⟨position, []⟩)
  | zeroOrMoreStays {rule body position step} :
      Peg grammar tokens rule body position (some step) -> step.next = position ->
      Peg grammar tokens rule (.zeroOrMore body) position (some ⟨position, []⟩)
  | zeroOrMoreGoesOn {rule body position first rest} :
      Peg grammar tokens rule body position (some first) -> first.next ≠ position ->
      Peg grammar tokens rule (.zeroOrMore body) first.next (some rest) ->
      Peg grammar tokens rule (.zeroOrMore body) position
        (some ⟨rest.next, first.nodes ++ rest.nodes⟩)
  | oneOrMoreFails {rule body position} :
      Peg grammar tokens rule body position none ->
      Peg grammar tokens rule (.oneOrMore body) position none
  | oneOrMoreStays {rule body position step} :
      Peg grammar tokens rule body position (some step) -> step.next = position ->
      Peg grammar tokens rule (.oneOrMore body) position (some ⟨position, []⟩)
  | oneOrMoreGoesOn {rule body position first rest} :
      Peg grammar tokens rule body position (some first) -> first.next ≠ position ->
      Peg grammar tokens rule (.zeroOrMore body) first.next (some rest) ->
      Peg grammar tokens rule (.oneOrMore body) position
        (some ⟨rest.next, first.nodes ++ rest.nodes⟩)

variable {grammar : Grammar} {tokens : Array Token} {active : List Frame} {rule : String}
  {expression : Expression} {position : Nat} {answer : Answer} {log : Log} {result : Option Step}

namespace Peg

/-- There is at most one derivation's result: a failure and a step, or two different steps, are not
both derived. -/
theorem unique {other : Option Step} (derived : Peg grammar tokens rule expression position result)
    (again : Peg grammar tokens rule expression position other) : result = other := by
  induction derived generalizing other with
  | literal found passes =>
    cases again with
    | literal => rfl
    | literalFails fails => exact absurd passes (fails _ found)
  | literalFails fails =>
    cases again with
    | literal found passes => exact absurd passes (fails _ found)
    | literalFails => rfl
  | mock found passes =>
    cases again with
    | mock => rfl
    | mockFails fails => exact absurd passes (fails _ found)
  | mockFails fails =>
    cases again with
    | mock found passes => exact absurd passes (fails _ found)
    | mockFails => rfl
  | rule found _ inductionHypothesis =>
    cases again with
    | rule found' inside' =>
      cases found.symm.trans found'
      cases inductionHypothesis inside'
      rfl
    | ruleFails found' inside' =>
      cases found.symm.trans found'
      cases inductionHypothesis inside'
  | ruleFails found _ inductionHypothesis =>
    cases again with
    | rule found' inside' =>
      cases found.symm.trans found'
      cases inductionHypothesis inside'
    | ruleFails => rfl
  | sequenceNil => cases again; rfl
  | sequenceCons _ _ firstHypothesis restHypothesis =>
    cases again with
    | sequenceCons first' rest' =>
      cases firstHypothesis first'
      cases restHypothesis rest'
      rfl
    | sequenceFails first' => cases firstHypothesis first'
    | sequenceFailsLater first' rest' =>
      cases firstHypothesis first'
      cases restHypothesis rest'
  | sequenceFails _ inductionHypothesis =>
    cases again with
    | sequenceCons first' => cases inductionHypothesis first'
    | sequenceFails => rfl
    | sequenceFailsLater => rfl
  | sequenceFailsLater _ _ firstHypothesis restHypothesis =>
    cases again with
    | sequenceCons first' rest' =>
      cases firstHypothesis first'
      cases restHypothesis rest'
    | sequenceFails => rfl
    | sequenceFailsLater => rfl
  | choiceNil => cases again; rfl
  | choiceFirst _ inductionHypothesis =>
    cases again with
    | choiceFirst first' => exact inductionHypothesis first'
    | choiceNext first' => cases inductionHypothesis first'
  | choiceNext _ _ firstHypothesis restHypothesis =>
    cases again with
    | choiceFirst first' => cases firstHypothesis first'
    | choiceNext _ rest' => exact restHypothesis rest'
  | optionalSome _ inductionHypothesis =>
    cases again with
    | optionalSome body' => exact inductionHypothesis body'
    | optionalNone body' => cases inductionHypothesis body'
  | optionalNone _ inductionHypothesis =>
    cases again with
    | optionalSome body' => cases inductionHypothesis body'
    | optionalNone => rfl
  | zeroOrMoreEnds _ inductionHypothesis =>
    cases again with
    | zeroOrMoreEnds => rfl
    | zeroOrMoreStays => rfl
    | zeroOrMoreGoesOn body' => cases inductionHypothesis body'
  | zeroOrMoreStays _ stays inductionHypothesis =>
    cases again with
    | zeroOrMoreEnds => rfl
    | zeroOrMoreStays => rfl
    | zeroOrMoreGoesOn body' moves =>
      cases inductionHypothesis body'
      exact absurd stays moves
  | zeroOrMoreGoesOn _ moves _ bodyHypothesis restHypothesis =>
    cases again with
    | zeroOrMoreEnds body' => cases bodyHypothesis body'
    | zeroOrMoreStays body' stays =>
      cases bodyHypothesis body'
      exact absurd stays moves
    | zeroOrMoreGoesOn body' _ rest' =>
      cases bodyHypothesis body'
      cases restHypothesis rest'
      rfl
  | oneOrMoreFails _ inductionHypothesis =>
    cases again with
    | oneOrMoreFails => rfl
    | oneOrMoreStays body' => cases inductionHypothesis body'
    | oneOrMoreGoesOn body' => cases inductionHypothesis body'
  | oneOrMoreStays _ stays inductionHypothesis =>
    cases again with
    | oneOrMoreFails body' => cases inductionHypothesis body'
    | oneOrMoreStays => rfl
    | oneOrMoreGoesOn body' moves =>
      cases inductionHypothesis body'
      exact absurd stays moves
  | oneOrMoreGoesOn _ moves _ bodyHypothesis restHypothesis =>
    cases again with
    | oneOrMoreFails body' => cases bodyHypothesis body'
    | oneOrMoreStays body' stays =>
      cases bodyHypothesis body'
      exact absurd stays moves
    | oneOrMoreGoesOn body' _ rest' =>
      cases bodyHypothesis body'
      cases restHypothesis rest'
      rfl

theorem zeroOrMore_ne_none {body : Expression}
    (derived : Peg grammar tokens rule (.zeroOrMore body) position result) : result ≠ none := by
  intro fails
  subst fails
  cases derived

end Peg

/-! ## Evaluations are derivations -/

/-- A test finds a token that passes, or there is none. -/
theorem TokenTest.step?_cases (tokens : Array Token) (question : TokenTest) (position : Nat) :
    (Exists fun token => tokens[position]? = some token ∧ question.passes token = true ∧
        question.step? tokens position = some ⟨position + 1, [.leaf position]⟩) ∨
      (forall token, tokens[position]? = some token -> ¬ question.passes token = true) ∧
        question.step? tokens position = none := by
  unfold step?
  split
  · rename_i passed
    rcases (Option.any_eq_true _ _).mp passed with ⟨token, found, passes⟩
    exact Or.inl ⟨token, found, passes, rfl⟩
  · rename_i failed
    refine Or.inr ⟨fun token found passes => failed ?_, rfl⟩
    exact (Option.any_eq_true _ _).mpr ⟨token, found, passes⟩

/-- An evaluation without a refused call is a derivation, whatever frames are active. -/
theorem Matching.Evaluates.peg
    (evaluates : Evaluates grammar tokens active rule expression position answer log)
    (unrefused : log.refusals = 0) :
    forall result, answer = .ok result -> Peg grammar tokens rule expression position result := by
  induction evaluates with
  | @literal _ _ kind text position =>
    rintro result ⟨⟩
    rcases TokenTest.step?_cases tokens (.literal kind text) position with
      ⟨token, found, passes, same⟩ | ⟨fails, same⟩
    · rw [same]
      exact .literal found (TokenTest.passes_literal_iff.mp passes)
    · rw [same]
      exact .literalFails fun token found passes =>
        fails token found (TokenTest.passes_literal_iff.mpr passes)
  | @mock _ rule position =>
    rintro result ⟨⟩
    rcases TokenTest.step?_cases tokens (.spelling rule) position with
      ⟨token, found, passes, same⟩ | ⟨fails, same⟩
    · rw [same]
      exact .mock found (TokenTest.passes_spelling_iff.mp passes)
    · rw [same]
      exact .mockFails fun token found passes =>
        fails token found (TokenTest.passes_spelling_iff.mpr passes)
  | undefined => intro result impossible; cases impossible
  | refused => cases unrefused
  | called found _ inside inductionHypothesis =>
    intro result matched
    rcases Answer.map_eq_ok matched with ⟨none | within, same, rfl⟩
    · exact .ruleFails found (inductionHypothesis unrefused none same)
    · rw [Option.map_some, (inside.covers within same).under_eq]
      exact .rule found (inductionHypothesis unrefused within same)
  | sequenceNil =>
    rintro result ⟨⟩
    exact .sequenceNil
  | sequenceStops _ stops inductionHypothesis =>
    rintro (none | step) matched
    · exact .sequenceFails (inductionHypothesis unrefused none matched)
    · exact absurd matched (stops step)
  | sequenceGoesOn _ _ itemHypothesis restHypothesis =>
    rcases Log.refusals_append_eq_zero_iff.mp unrefused with ⟨unrefused, unrefused'⟩
    intro result matched
    have first := itemHypothesis unrefused _ rfl
    rcases Answer.map_eq_ok matched with ⟨none | rest, same, rfl⟩
    · exact .sequenceFailsLater first (restHypothesis unrefused' none same)
    · exact .sequenceCons first (restHypothesis unrefused' rest same)
  | choiceNil =>
    rintro result ⟨⟩
    exact .choiceNil
  | choiceStops _ stops inductionHypothesis =>
    rintro (none | step) matched
    · exact absurd matched stops
    · exact .choiceFirst (inductionHypothesis unrefused step matched)
  | choiceGoesOn _ _ firstHypothesis restHypothesis =>
    rcases Log.refusals_append_eq_zero_iff.mp unrefused with ⟨unrefused, unrefused'⟩
    intro result matched
    exact .choiceNext (firstHypothesis unrefused none rfl)
      (restHypothesis unrefused' result matched)
  | optional _ inductionHypothesis =>
    intro result matched
    rcases Answer.map_eq_ok matched with ⟨none | step, same, rfl⟩
    · exact .optionalNone (inductionHypothesis unrefused none same)
    · exact .optionalSome (inductionHypothesis unrefused step same)
  | zeroOrMoreStops _ stays inductionHypothesis =>
    intro result matched
    rcases Answer.map_eq_ok matched with ⟨none | step, same, rfl⟩
    · exact .zeroOrMoreEnds (inductionHypothesis unrefused none same)
    · exact .zeroOrMoreStays (inductionHypothesis unrefused step same) (stays step same)
  | zeroOrMoreGoesOn _ moves _ bodyHypothesis restHypothesis =>
    rcases Log.refusals_append_eq_zero_iff.mp unrefused with ⟨unrefused, unrefused'⟩
    intro result matched
    rcases Answer.map_eq_ok matched with ⟨none | rest, same, rfl⟩
    · exact absurd rfl (restHypothesis unrefused' none same).zeroOrMore_ne_none
    · exact .zeroOrMoreGoesOn (bodyHypothesis unrefused _ rfl) moves
        (restHypothesis unrefused' rest same)
  | oneOrMoreStops _ stays inductionHypothesis =>
    intro result matched
    rcases Answer.map_eq_ok matched with ⟨none | step, same, rfl⟩
    · exact .oneOrMoreFails (inductionHypothesis unrefused none same)
    · exact .oneOrMoreStays (inductionHypothesis unrefused step same) (stays step same)
  | oneOrMoreGoesOn _ moves _ bodyHypothesis restHypothesis =>
    rcases Log.refusals_append_eq_zero_iff.mp unrefused with ⟨unrefused, unrefused'⟩
    intro result matched
    rcases Answer.map_eq_ok matched with ⟨none | rest, same, rfl⟩
    · exact absurd rfl (restHypothesis unrefused' none same).zeroOrMore_ne_none
    · exact .oneOrMoreGoesOn (bodyHypothesis unrefused _ rfl) moves
        (restHypothesis unrefused' rest same)

/-! ## Matchers compute derivations -/

/-- A matcher of a validated rule and a grammar without left recursion reports an outcome at every
place.  It reports a tree exactly when the tree is derived, and a failure exactly when no match is
derived. -/
theorem Matcher.matchRule_iff_peg (matcher : Matcher) (root : String) (start : Nat)
    (validated : matcher.grammar.validate root = .ok ())
    (checked : matcher.grammar.checkLeftRecursion = .ok ()) :
    (Exists fun outcome => (matcher.matchRule root start).1 = .ok outcome) ∧
      (forall tree, (matcher.matchRule root start).1 = .ok (.success tree) <->
        Exists fun next => Peg matcher.grammar matcher.tokens root (.rule root) start
          (some ⟨next, [tree]⟩)) ∧
      ((Exists fun failure => (matcher.matchRule root start).1 = .ok (.failure failure)) <->
        Peg matcher.grammar matcher.tokens root (.rule root) start none) := by
  rcases matcher.matchRule_evaluates root start with ⟨result, log, evaluates, reports⟩
  have unrefused : log.refusals = 0 :=
    evaluates.unrefused (Grammar.leftAcyclic_of_check checked) .start
  have sound := evaluates.ne_error (Grammar.complete_of_validate validated) fun name mentioned => by
    cases List.mem_singleton.mp mentioned
    exact .refl
  have derived := evaluates.peg unrefused
  rw [reports]
  rcases result with error | none | tree
  · exact absurd rfl (sound error)
  · have fails := derived none rfl
    refine ⟨⟨_, rfl⟩, fun tree => ⟨fun impossible => ?_, ?_⟩, fun _ => fails, fun _ => ⟨_, rfl⟩⟩
    · cases impossible
    · rintro ⟨next, other⟩
      cases fails.unique other
  · have matches_tree := derived _ rfl
    refine ⟨⟨_, rfl⟩, fun other => ⟨?_, ?_⟩, ?_, fun other => ?_⟩
    · rintro ⟨⟩
      exact ⟨_, matches_tree⟩
    · rintro ⟨next, other⟩
      cases matches_tree.unique other
      rfl
    · rintro ⟨failure, impossible⟩
      cases impossible
    · cases matches_tree.unique other

/-- A round in place counts for the repetition and leaves no node, and a choice tries its second
alternative.  One token later the same rule fails, although the repetition matches there. -/
theorem Matcher.matchRule_iff_peg_zero_width :
    let matcher : Matcher :=
      { grammar := ⟨[⟨"a", .sequence [.oneOrMore (.optional (.rule "b")), .rule "c"], false⟩,
          ⟨"b", .word "y", false⟩,
          ⟨"c", .choice [.sequence [.word "x", .op "+"], .sequence [.word "x", .rule "b"]],
            false⟩], 0⟩
        tokens := #[⟨.keyword, "x", default, default⟩, ⟨.keyword, "y", default, default⟩] }
    let tree : Tree := .node "a" 0 2 [.node "c" 0 2 [.leaf 0, .node "b" 1 1 [.leaf 1]]]
    (Exists fun next => Peg matcher.grammar matcher.tokens "a" (.rule "a") 0
        (some ⟨next, [tree]⟩)) ∧
      Peg matcher.grammar matcher.tokens "a" (.rule "a") 1 none := by
  intro matcher tree
  have validated : matcher.grammar.validate "a" = .ok () := by decide
  have checked : matcher.grammar.checkLeftRecursion = .ok () := by decide
  have matched : (matcher.matchRule "a" 0).1 = .ok (.success tree) :=
    Matcher.matchRule_of_unremembered (by with_unfolding_all rfl)
  have failed : (matcher.matchRule "a" 1).1 = .ok (.failure ⟨2, "b", ["'y'", "'x'"]⟩) :=
    Matcher.matchRule_of_unremembered (by with_unfolding_all rfl)
  exact ⟨((matcher.matchRule_iff_peg "a" 0 validated checked).2.1 tree).mp matched,
    (matcher.matchRule_iff_peg "a" 1 validated checked).2.2.mp ⟨_, failed⟩⟩

end Packrat
