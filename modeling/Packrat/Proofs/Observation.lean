import Packrat.Proofs.Barrier
import Packrat.Proofs.Masks
import Packrat.Proofs.Starting
import Packrat.Proofs.Translation
import Packrat.Proofs.Validation

namespace Packrat

/-!
# What a match sees of its tokens

A match sees a token only through the tests of the rules that can be reached from its root, and it
sees no place but as the distance from where it began.  So where the same tests pass one after the
other, in another text and from another place on, a match comes to the same: the tree stands at the
other place, and so does the failure.

What no test asks for is not seen at all: where a token lies in its source, and what stands before
the beginning.  The built-in grammar, without mocks, asks for the texts of reserved words and of
operators only.
-/

/-! ## Outcomes elsewhere -/

variable {origin target : Nat}

theorem moved_origin : moved origin target origin = target := by
  unfold moved
  omega

theorem moved_lt_moved_iff {place other : Nat} (behind : origin ≤ place)
    (behind' : origin ≤ other) :
    moved origin target place < moved origin target other <-> place < other := by
  unfold moved
  omega

def Failure.moved (origin target : Nat) (failure : Failure) : Failure :=
  { failure with position := Packrat.moved origin target failure.position }

def Outcome.moved (origin target : Nat) : Outcome -> Outcome
  | success tree => success (tree.moved origin target)
  | failure furthest => failure (furthest.moved origin target)

/-- A failure is behind a place, if there is one. -/
def Failure.Behind (origin : Nat) (furthest : Option Failure) : Prop :=
  forall failure, furthest = some failure -> origin ≤ failure.position

namespace Failure

variable {furthest : Option Failure} {position : Nat} {rule expected : String}

theorem Behind.extend (behind : Behind origin furthest) (later : origin ≤ position) :
    Behind origin (some (Failure.extend furthest position rule expected)) := by
  intro failure same
  cases same
  cases furthest with
  | none => exact later
  | some failure =>
    rw [Failure.extend]
    split
    · exact later
    · split
      · exact behind failure rfl
      · exact behind failure rfl

/-- Noting a failed test and moving can be exchanged. -/
theorem extend_moved (behind : Behind origin furthest) (later : origin ≤ position) :
    Failure.extend (furthest.map (Failure.moved origin target))
        (Packrat.moved origin target position) rule expected =
      (Failure.extend furthest position rule expected).moved origin target := by
  cases furthest with
  | none => rfl
  | some failure =>
    have before := behind failure rfl
    have same : Packrat.moved origin target position =
        Packrat.moved origin target failure.position <-> position = failure.position :=
      ⟨moved_injective later before, congrArg _⟩
    simp only [Option.map_some, Failure.extend, Failure.moved, moved_lt_moved_iff before later,
      same]
    split
    · rfl
    · split <;> rfl

end Failure

theorem Log.furthest_moved {before : Option Failure} {log : Log}
    (behind : Failure.Behind origin before)
    (later : forall place within text, .failed place within text ∈ log -> origin ≤ place) :
    (log.moved origin target).furthest (before.map (Failure.moved origin target)) =
      (log.furthest before).map (Failure.moved origin target) := by
  induction log generalizing before with
  | nil => rfl
  | cons event log inductionHypothesis =>
    have rest := fun place within text member =>
      later place within text (List.mem_cons_of_mem event member)
    cases event with
    | failed place within text =>
      have here := later place within text List.mem_cons_self
      have behind' : Failure.Behind origin (some (Failure.extend before place within text)) :=
        behind.extend here
      have noted := inductionHypothesis behind' rest
      rw [Option.map_some, ← Failure.extend_moved behind here] at noted
      exact noted
    | entered frame => exact inductionHypothesis behind rest
    | refused frame => exact inductionHypothesis behind rest

/-! ## The tests of a root -/

/-- A test is made by a rule that can be reached from a root: it is a literal of the expression that
the rule matches at present, or the spelling of the rule where this expression is a mock. -/
def Grammar.Asks (grammar : Grammar) (root : String) (question : TokenTest) : Prop :=
  Exists fun name => Exists fun target => grammar.Reaches root name ∧
    grammar.find? name = some target ∧ question ∈ target.effective.tests name

namespace Matching

variable {grammar : Grammar} {tokens others : Array Token} {active : List Frame}
  {root rule : String} {expression : Expression} {position place : Nat} {question : TokenTest}

/-- What is tried is a test of the expression, or of a rule that can be reached from what it
mentions. -/
theorem Tries.asked
    (tries : Tries grammar tokens active rule expression position question place)
    (reached : forall name, name ∈ expression.mentions -> grammar.Reaches root name) :
    question ∈ expression.tests rule ∨ grammar.Asks root question := by
  induction tries with
  | literal | mock => exact Or.inl (List.mem_singleton_self _)
  | called found _ _ inductionHypothesis =>
    have reaches := reached _ List.mem_cons_self
    rcases inductionHypothesis fun name mentioned => reaches.tail ⟨_, found, mentioned⟩ with
      own | further
    · exact Or.inr ⟨_, _, reaches, found, own⟩
    · exact Or.inr further
  | item _ inductionHypothesis | alternative _ inductionHypothesis =>
    exact (inductionHypothesis fun name mentioned =>
      reached name (List.mem_append_left _ mentioned)).imp_left (List.mem_append_left _)
  | laterItem _ _ inductionHypothesis | laterAlternative _ _ inductionHypothesis =>
    exact (inductionHypothesis fun name mentioned =>
      reached name (List.mem_append_right _ mentioned)).imp_left (List.mem_append_right _)
  | optional _ inductionHypothesis | zeroOrMore _ inductionHypothesis
  | zeroOrMoreLater _ _ _ inductionHypothesis | oneOrMore _ inductionHypothesis
  | oneOrMoreLater _ _ _ inductionHypothesis => exact inductionHypothesis reached

theorem Tries.asked_of_call
    (tries : Tries grammar tokens active rule (.rule root) position question place) :
    grammar.Asks root question := by
  refine (tries.asked fun name mentioned => ?_).resolve_left List.not_mem_nil
  cases List.mem_singleton.mp mentioned
  exact .refl

end Matching

/-! ## Texts that are alike from a place on -/

/-- Two texts are equally long from a place in each on, and their tokens are alike there one by
one. -/
structure AlikeBeyond (alike : Token -> Token -> Prop) (tokens : Array Token) (start : Nat)
    (others : Array Token) (target : Nat) : Prop where
  start_le : start ≤ tokens.size
  target_le : target ≤ others.size
  sizes : others.size - target = tokens.size - start
  alike : forall count token other, tokens[start + count]? = some token ->
    others[target + count]? = some other -> alike token other

namespace AlikeBeyond

variable {alike weaker : Token -> Token -> Prop} {tokens others : Array Token} {start : Nat}
  {question : TokenTest}

theorem mono (beyond : AlikeBeyond alike tokens start others target)
    (weakens : forall token other, alike token other -> weaker token other) :
    AlikeBeyond weaker tokens start others target :=
  ⟨beyond.start_le, beyond.target_le, beyond.sizes, fun count token other found found' =>
    weakens token other (beyond.alike count token other found found')⟩

/-- A test that cannot tell the tokens apart passes at the same places from there on. -/
theorem passesAt_eq (beyond : AlikeBeyond alike tokens start others target)
    (blind : forall token other, alike token other -> question.passes other = question.passes token)
    {place : Nat} (behind : start ≤ place) :
    question.passesAt others (moved start target place) = question.passesAt tokens place := by
  rcases Nat.exists_eq_add_of_le behind with ⟨count, rfl⟩
  have shifted : moved start target (start + count) = target + count := by
    unfold moved
    omega
  have sizes := beyond.sizes
  have inside := beyond.start_le
  have inside' := beyond.target_le
  rw [shifted, TokenTest.passesAt, TokenTest.passesAt]
  by_cases within : start + count < tokens.size
  · have within' : target + count < others.size := by omega
    have found := Array.getElem?_eq_getElem within
    have found' := Array.getElem?_eq_getElem within'
    have same := blind _ _ (beyond.alike count _ _ found found')
    rw [found, found', Option.any_some, Option.any_some, same]
  · rw [Array.getElem?_eq_none (by omega), Array.getElem?_eq_none (by omega)]

end AlikeBeyond

/-! ## Matches elsewhere -/

namespace Matcher

variable {grammar : Grammar} {root : String} {tokens others : Array Token} {start : Nat}

/-- What a call comes to elsewhere is reported at the other place. -/
theorem report_moved {result result' : Except GrammarError (Option Tree)}
    {furthest : Option Failure}
    (same : result'.map (Option.map Tree.step) =
      Answer.moved start target (result.map (Option.map Tree.step))) :
    report root target (furthest.map (Failure.moved start target)) result' =
      (report root start furthest result).map (Outcome.moved start target) := by
  rcases result with error | none | tree <;> rcases result' with error' | none' | tree'
  case error.error =>
    cases same
    rfl
  case ok.none.ok.none =>
    cases furthest with
    | none =>
      simp only [report, Option.map_none, Option.getD_none, Except.map, Outcome.moved,
        Failure.moved, moved_origin]
    | some failure => rfl
  case ok.some.ok.some =>
    have nodes := (Step.mk.inj (Option.some.inj (Except.ok.inj same))).2
    rw [(List.cons.inj nodes).1]
    rfl
  all_goals cases same

/-- Where no test of a root can tell the tokens apart, the root is matched alike. -/
theorem matchRule_eq_moved {alike : Token -> Token -> Prop}
    (beyond : AlikeBeyond alike tokens start others target)
    (blind : forall question, grammar.Asks root question -> forall token other,
      alike token other -> question.passes other = question.passes token)
    (memoize : Bool) (memory memory' : Session) :
    ((Matcher.mk grammar others memoize memory').matchRule root target).1 =
      ((Matcher.mk grammar tokens memoize memory).matchRule root start).1.map
        (Outcome.moved start target) := by
  rcases (Matcher.mk grammar tokens memoize memory).matchRule_evaluates root start with
    ⟨result, log, evaluates, reports⟩
  rcases (Matcher.mk grammar others memoize memory').matchRule_evaluates root target with
    ⟨result', log', evaluates', reports'⟩
  have elsewhere : Matching.Evaluates grammar others [] root (.rule root)
      (moved start target start) (Answer.moved start target (result.map (Option.map Tree.step)))
      (log.moved start target) :=
    evaluates.moved (Nat.le_refl start) nofun fun question place tries =>
      beyond.passesAt_eq (blind question tries.asked_of_call) tries.le
  rw [moved_origin] at elsewhere
  rcases evaluates'.unique elsewhere with ⟨same, rfl⟩
  have later : forall place within text, .failed place within text ∈ log -> start ≤ place := by
    intro place within text failed
    rcases evaluates.failed_mem_iff.mp ⟨within, failed⟩ with ⟨question, tries, -⟩
    exact tries.le
  have fresh : Failure.Behind start none := nofun
  have furthest : (log.moved start target).furthest none =
      (log.furthest none).map (Failure.moved start target) := Log.furthest_moved fresh later
  rw [reports, reports', furthest, report_moved same]

end Matcher

/-! ## What the built-in grammar asks -/

/-- A test does not ask how an identifier or a literal is spelled. -/
def TokenTest.ignoresSpelling : TokenTest -> Bool
  | literal kind text => text.isNone || (kind != .identifier && kind != .literal)
  | spelling _ => false

theorem TokenTest.passes_eq_of_ignoresSpelling {question : TokenTest} {token other : Token}
    (ignores : question.ignoresSpelling = true) (kinds : other.kind = token.kind)
    (texts : token.kind ≠ .identifier -> token.kind ≠ .literal -> other.text = token.text) :
    question.passes other = question.passes token := by
  cases question with
  | spelling name => cases ignores
  | literal kind text =>
    rw [passes, passes, kinds]
    cases text with
    | none => rfl
    | some text =>
      by_cases same : token.kind = kind
      · simp only [ignoresSpelling, Option.isNone_some, Bool.false_or, Bool.and_eq_true,
          bne_iff_ne, ← same] at ignores
        rw [texts ignores.1 ignores.2]
      · rw [beq_eq_false_iff_ne.mpr same, Bool.false_and, Bool.false_and]

theorem BuiltIn.ignoresSpelling_of_asks {root : String} {question : TokenTest}
    (asks : BuiltIn.grammar.Asks root question) : question.ignoresSpelling = true := by
  have all : (blockRules ++ statementRules ++ valueRules).all (fun entry =>
      (entry.2.tests entry.1).all TokenTest.ignoresSpelling) = true := by
    decide +kernel
  rcases asks with ⟨name, target, -, found, member⟩
  rw [Rule.effective_of_not_mocked (not_mocked (Grammar.mem_rules_of_find? found).1)] at member
  have defined := mem_of_mem_definitions (Grammar.mem_definitions found)
  exact List.all_eq_true.mp (List.all_eq_true.mp all _ defined) question member

/-! ## Only the tests are seen -/

/-- A match of a root sees of its tokens only what the tests of the root tell, and only from where
it begins.  In another text, from another place on, where the tests tell the same and as many tokens
are left, it comes to the same there, with or without a memory.  So it never sees where the tokens
lie in their source, and the built-in grammar sees of identifiers and literals only what they
are. -/
theorem Matcher.matchRule_moved (tokens others : Array Token) (start target : Nat)
    (memoize : Bool) (memory memory' : Session) :
    (forall (grammar : Grammar) (root : String),
      AlikeBeyond (fun token other => forall question, grammar.Asks root question ->
          question.passes other = question.passes token) tokens start others target ->
        ((Matcher.mk grammar others memoize memory').matchRule root target).1 =
          ((Matcher.mk grammar tokens memoize memory).matchRule root start).1.map
            (Outcome.moved start target)) ∧
    (AlikeBeyond (fun token other => other.kind = token.kind ∧ other.text = token.text)
        tokens start others target ->
      forall (grammar : Grammar) (root : String),
        ((Matcher.mk grammar others memoize memory').matchRule root target).1 =
          ((Matcher.mk grammar tokens memoize memory).matchRule root start).1.map
            (Outcome.moved start target)) ∧
    (AlikeBeyond (fun token other => other.kind = token.kind ∧
          (token.kind ≠ .identifier -> token.kind ≠ .literal -> other.text = token.text))
        tokens start others target ->
      forall root : String,
        ((Matcher.mk BuiltIn.grammar others memoize memory').matchRule root target).1 =
          ((Matcher.mk BuiltIn.grammar tokens memoize memory).matchRule root start).1.map
            (Outcome.moved start target)) := by
  refine ⟨fun grammar root beyond => ?_, fun beyond grammar root => ?_, fun beyond root => ?_⟩
  · exact matchRule_eq_moved beyond
      (fun question asks token other alike => alike question asks) memoize memory memory'
  · refine matchRule_eq_moved beyond (fun question _ token other alike => ?_) memoize memory
      memory'
    cases question <;> simp only [TokenTest.passes, alike.1, alike.2]
  · exact matchRule_eq_moved beyond (fun question asks token other alike =>
      TokenTest.passes_eq_of_ignoresSpelling (BuiltIn.ignoresSpelling_of_asks asks) alike.1
        alike.2) memoize memory memory'

/-- A mock cannot tell its name from the name in upper case, no rule can tell where its tokens lie,
and the built-in grammar cannot tell two names apart.  In the other texts the name stands behind
another token. -/
theorem Matcher.matchRule_moved_spelling :
    let grammar : Grammar := ⟨[⟨"a", .op "+", true⟩], 0⟩
    let tokens : Array Token := #[⟨.identifier, "a", default, default⟩]
    let others : Array Token :=
      #[⟨.newline, "\n", default, default⟩, ⟨.identifier, "A", ⟨4, 5⟩, ⟨4, 1, 0⟩⟩]
    let later : Array Token :=
      #[⟨.newline, "\n", default, default⟩, ⟨.identifier, "a", ⟨4, 5⟩, ⟨4, 1, 0⟩⟩]
    AlikeBeyond (fun token other => forall question, grammar.Asks "a" question ->
        question.passes other = question.passes token) tokens 0 others 1 ∧
      ((Matcher.mk grammar others true {}).matchRule "a" 1).1 =
        .ok (.success (.node "a" 1 1 [.leaf 1])) ∧
      AlikeBeyond (fun token other => other.kind = token.kind ∧ other.text = token.text)
        tokens 0 later 1 ∧
      ((Matcher.mk grammar later true {}).matchRule "a" 1).1 =
        .ok (.success (.node "a" 1 1 [.leaf 1])) ∧
      AlikeBeyond (fun token other => other.kind = token.kind ∧
          (token.kind ≠ .identifier -> token.kind ≠ .literal -> other.text = token.text))
        tokens 0 others 1 ∧
      ((Matcher.mk BuiltIn.grammar others true {}).matchRule "atom" 1).1 =
        ((Matcher.mk BuiltIn.grammar tokens true {}).matchRule "atom" 0).1.map
          (Outcome.moved 0 1) := by
  intro grammar tokens others later
  have single : forall (alike : Token -> Token -> Prop) (text : Array Token), text.size = 2 ->
      (forall other, text[1]? = some other -> alike tokens[0] other) ->
        AlikeBeyond alike tokens 0 text 1 := by
    intro alike text size same
    refine ⟨Nat.zero_le _, size ▸ by decide, by rw [size]; rfl, ?_⟩
    intro count token other found found'
    cases count with
    | zero =>
      cases found
      exact same other found'
    | succ count => simp [tokens] at found
  have known : forall question, grammar.Asks "a" question -> question = .spelling "a" := by
    rintro question ⟨name, target, reaches, found, member⟩
    have named : name = "a" := by
      rcases Relation.ReflTransGen.cases_head reaches with rfl | ⟨_, refers, -⟩
      · rfl
      · rcases refers with ⟨first, found', mentioned⟩
        cases found'
        cases mentioned
    subst named
    cases found
    exact List.mem_singleton.mp member
  have beyond := single (fun token other => forall question, grammar.Asks "a" question ->
      question.passes other = question.passes token) others rfl fun other found question asks => by
    cases found
    rw [known question asks]
    rfl
  have same := single (fun token other => other.kind = token.kind ∧ other.text = token.text) later
    rfl fun other found => by
      cases found
      exact ⟨rfl, rfl⟩
  have named := single (fun token other => other.kind = token.kind ∧
      (token.kind ≠ .identifier -> token.kind ≠ .literal -> other.text = token.text)) others rfl
    fun other found => by
      cases found
      exact ⟨rfl, fun impossible => absurd rfl impossible⟩
  have matched : ((Matcher.mk grammar tokens true {}).matchRule "a" 0).1 =
      .ok (.success (.node "a" 0 1 [.leaf 0])) :=
    Matcher.matchRule_of_unremembered rfl
  have elsewhere := (matchRule_moved tokens others 0 1 true {} {}).1 grammar "a" beyond
  have further := (matchRule_moved tokens later 0 1 true {} {}).2.1 same grammar "a"
  have unseen := (matchRule_moved tokens others 0 1 true {} {}).2.2 named "atom"
  rw [matched] at elsewhere further
  exact ⟨beyond, elsewhere, same, further, named, unseen⟩

end Packrat
