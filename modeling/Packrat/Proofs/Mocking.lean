import Packrat.Proofs.Distance
import Packrat.Testing.Tester

namespace Packrat

/-!
# Scopes of mocks leave nothing behind

A scope lists the rules that it mocked, and none of them was mocked before.  This is kept by every
name that is added, so whenever the scope ends, releasing the listed rules restores all of them and
no rule that was mocked already.  It makes no difference whether the scope ends because its
assertions were checked, because one of them failed, or because a name was not defined.

A mocked rule refers to no other rule.  So mocking makes fewer rules reachable, and what was
complete without a mock is complete with it.
-/

namespace Grammar

variable {grammar : Grammar} {root : String}

/-- A match of a validated rule reports an outcome. -/
theorem matchRule_ok (validated : grammar.validate root = .ok ()) (tokens : Array Token)
    (start : Nat) :
    Exists fun outcome => grammar.matchRule root tokens start = .ok outcome := by
  rcases (Matcher.mk grammar tokens true {}).matchRule_ok root start validated with
    ⟨outcome, matched⟩
  refine ⟨outcome, ?_⟩
  rw [matchRule, validated]
  exact matched

theorem matchEntirely_ok (validated : grammar.validate root = .ok ()) (tokens : Array Token) :
    Exists fun outcome => grammar.matchEntirely root tokens = .ok outcome := by
  rcases (Matcher.mk grammar tokens true {}).matchEntirely_ok root validated with
    ⟨outcome, matched⟩
  refine ⟨outcome, ?_⟩
  rw [matchEntirely, validated]
  exact matched

theorem find?_unmock_each (grammar : Grammar) (names : List String) (other : String) :
    (names.foldl (fun grammar name => (grammar.unmock name).toOption.getD grammar)
      grammar).find? other =
      if other ∈ names then (grammar.find? other).map (·.withMock false)
      else grammar.find? other := by
  induction names generalizing grammar with
  | nil => rfl
  | cons name names inductionHypothesis =>
    rw [List.foldl_cons, inductionHypothesis, find?_unmock]
    by_cases first : other = name
    · rw [if_pos first, if_pos (List.mem_cons.mpr (Or.inl first)), Option.map_map]
      exact ite_self _
    · rw [if_neg first]
      simp only [List.mem_cons, first, false_or]

end Grammar

namespace RuleTester

variable {tester before middle after : RuleTester} {grammar : Grammar} {root name : String}

/-! ## Testers that agree -/

/-- Two testers agree when they test the same rule of the same rules. -/
structure Agrees (before after : RuleTester) : Prop where
  root_eq : after.root = before.root
  find?_eq : forall name, after.grammar.find? name = before.grammar.find? name

/-- No assertion about the tested rule ends in an error of the grammar. -/
def Usable (tester : RuleTester) : Prop :=
  forall assertion root input error, tester.check assertion ≠ .error (.unusable root input error)

/-- A tester of a rule from which nothing undefined can be reached. -/
structure Ready (tester : RuleTester) (root : String) : Prop where
  root_eq : tester.root = root
  validated : tester.grammar.validate root = .ok ()
  usable : tester.Usable

theorem Agrees.refl (tester : RuleTester) : tester.Agrees tester :=
  ⟨rfl, fun _ => rfl⟩

theorem Agrees.trans (first : before.Agrees middle) (second : middle.Agrees after) :
    before.Agrees after :=
  ⟨second.root_eq.trans first.root_eq, fun name =>
    (second.find?_eq name).trans (first.find?_eq name)⟩

theorem Agrees.isMocked_eq (agrees : before.Agrees after) (name : String) :
    after.isMocked name = before.isMocked name := by
  rw [isMocked, isMocked, Grammar.isMocked, agrees.find?_eq, Grammar.isMocked]

theorem Agrees.effective?_eq (agrees : before.Agrees after) (name : String) :
    after.grammar.effective? name = before.grammar.effective? name := by
  rw [Grammar.effective?, agrees.find?_eq, Grammar.effective?]

/-! ## Testers that are ready -/

theorem settle_ne_unusable {result : Except GrammarError Outcome} {input : String}
    {error : GrammarError} {complain : GrammarError -> Complaint}
    {settle : Outcome -> Except Complaint Unit}
    (matched : Exists fun outcome => result = .ok outcome)
    (settles : forall outcome, settle outcome ≠ .error (.unusable root input error)) :
    (result.mapError complain >>= settle) ≠ .error (.unusable root input error) := by
  rcases matched with ⟨outcome, rfl⟩
  exact settles outcome

/-- The assertions about a validated rule can fail, but they always come to a match. -/
theorem usable_of_validate (validated : tester.grammar.validate tester.root = .ok ()) :
    tester.Usable := by
  intro assertion root input error
  cases assertion with
  | accepts text | rejects text =>
    rw [check, Assertion.check]
    cases Token.ofSource text with
    | error lexError => nofun
    | ok tokens =>
      apply settle_ne_unusable (Grammar.matchEntirely_ok validated _)
      rintro (tree | failure) <;> nofun
  | consumes text count =>
    rw [check, Assertion.check]
    cases Token.ofSource text with
    | error lexError => nofun
    | ok tokens =>
      apply settle_ne_unusable (Grammar.matchRule_ok validated _ 0)
      rintro (tree | failure)
      · by_cases counted : tree.consumed = count
        · simp only [if_pos counted]
          nofun
        · simp only [if_neg counted]
          nofun
      · nofun

theorem ready_of_validate (tests : tester.root = root)
    (validated : tester.grammar.validate root = .ok ()) : tester.Ready root := by
  subst tests
  exact ⟨rfl, validated, usable_of_validate validated⟩

theorem ready_of_new (new : ofGrammar grammar root = .ok tester) : tester.Ready root := by
  rw [ofGrammar] at new
  cases validated : grammar.validate root with
  | error error =>
    rw [validated] at new
    cases new
  | ok checked =>
    rw [validated] at new
    cases new
    exact ready_of_validate rfl validated

/-- A tester stays ready when its rules stay as they are or are mocked. -/
theorem Ready.of_mocks (ready : before.Ready root) (tests : after.root = before.root)
    (mocks : forall name target, before.grammar.find? name = some target ->
      after.grammar.find? name = some target ∨
        after.grammar.find? name = some (target.withMock true)) : after.Ready root := by
  apply ready_of_validate (tests.trans ready.root_eq)
  apply Grammar.validate_eq_ok_iff.mpr
  apply (Grammar.validate_eq_ok_iff.mp ready.validated).of_mentions_subset
  intro name target found
  rcases mocks name target found with kept | mocked
  · exact ⟨target, kept, List.Subset.refl _⟩
  · exact ⟨target.withMock true, mocked, List.nil_subset _⟩

theorem Agrees.ready (agrees : before.Agrees after) (ready : before.Ready root) :
    after.Ready root :=
  ready.of_mocks agrees.root_eq fun name _ found => Or.inl ((agrees.find?_eq name).trans found)

/-- The first assertion that fails does not end in an error of the grammar either. -/
theorem Usable.forM_ne_unusable (usable : tester.Usable) (assertions : List Assertion)
    (root input : String) (error : GrammarError) :
    assertions.forM tester.check ≠ .error (.unusable root input error) := by
  induction assertions with
  | nil => nofun
  | cons assertion assertions inductionHypothesis =>
    rw [List.forM]
    cases checked : tester.check assertion with
    | ok passed => exact inductionHypothesis
    | error complaint =>
      have other := usable assertion root input error
      rw [checked] at other
      exact other

end RuleTester

namespace MockScope

variable {before : RuleTester} {scope wider : MockScope} {name other : String} {target : Rule}
  {names : List String}

/-! ## What a scope keeps -/

/-- What a scope did to its tester: it mocked the rules that it lists, and they are rules that were
not mocked before. -/
structure Extends (before : RuleTester) (scope : MockScope) : Prop where
  root_eq : scope.tester.root = before.root
  find?_eq : forall name, scope.tester.grammar.find? name =
    if name ∈ scope.mocked then (before.grammar.find? name).map (·.withMock true)
    else before.grammar.find? name
  unmocked : forall name, name ∈ scope.mocked -> Exists fun target =>
    before.grammar.find? name = some target ∧ target.mocked = false

theorem extend_mocked (already : scope.tester.isMocked name = true) :
    scope.extend name = .ok scope := by
  rw [extend, if_pos already]

namespace Extends

theorem start (tester : RuleTester) : Extends tester ⟨tester, []⟩ :=
  ⟨rfl, fun _ => rfl, nofun⟩

theorem isMocked_iff (inside : Extends before scope) (name : String) :
    scope.tester.isMocked name = true <-> before.isMocked name = true ∨ name ∈ scope.mocked := by
  rw [RuleTester.isMocked, Grammar.isMocked, inside.find?_eq]
  by_cases member : name ∈ scope.mocked
  · rcases inside.unmocked name member with ⟨target, found, -⟩
    rw [if_pos member, found]
    exact iff_of_true rfl (Or.inr member)
  · rw [if_neg member]
    exact (or_iff_left member).symm

theorem extend_error (inside : Extends before scope) (missing : before.grammar.find? name = none) :
    scope.extend name = .error (.undefinedRule name none) := by
  have missing' : scope.tester.grammar.find? name = none := by
    rw [inside.find?_eq, missing]
    exact ite_self _
  simp [extend, RuleTester.isMocked, Grammar.isMocked, Grammar.mock, Grammar.get, missing',
    Except.map]

theorem extend_new (inside : Extends before scope)
    (found : before.grammar.find? name = some target)
    (unmocked : scope.tester.isMocked name = false) :
    Exists fun wider => scope.extend name = .ok wider ∧ Extends before wider ∧
      wider.mocked = scope.mocked ++ [name] := by
  have absent : name ∉ scope.mocked := by
    intro member
    rw [(inside.isMocked_iff name).mpr (Or.inr member)] at unmocked
    cases unmocked
  have found' : scope.tester.grammar.find? name = some target := by
    rw [inside.find?_eq, if_neg absent, found]
  have released : target.mocked = false := by
    rw [RuleTester.isMocked, Grammar.isMocked, found'] at unmocked
    exact unmocked
  -- The new name is not in the list yet, so its rule is still the one from before the scope.
  refine ⟨⟨{ scope.tester with grammar := scope.tester.grammar.setMock name true },
    scope.mocked ++ [name]⟩, ?_, ⟨inside.root_eq, fun other => ?_, fun other member => ?_⟩, rfl⟩
  · rw [extend, unmocked, Grammar.mock, Grammar.get, found']
    rfl
  · rw [Grammar.find?_setMock, inside.find?_eq]
    by_cases same : other = name
    · subst same
      rw [if_pos rfl, if_neg absent, if_pos (List.mem_append_right _ List.mem_cons_self)]
    · simp only [List.mem_append, List.mem_singleton, same, or_false, if_false]
  · rcases List.mem_append.mp member with earlier | last
    · exact inside.unmocked other earlier
    · cases List.mem_singleton.mp last
      exact ⟨target, found, released⟩

/-- After one more name is mocked, the unmocked names are the others. -/
theorem filter_unmocked (inside : Extends before scope) (insideWider : Extends before wider)
    (listed : wider.mocked = scope.mocked ++ [name]) :
    (names.filter fun other => !wider.tester.isMocked other) =
      (names.filter fun other => !scope.tester.isMocked other).filter (! · == name) := by
  have mocked_wider : forall other, wider.tester.isMocked other =
      (scope.tester.isMocked other || other == name) := by
    intro other
    rw [Bool.eq_iff_iff, insideWider.isMocked_iff, listed, Bool.or_eq_true, inside.isMocked_iff,
      List.mem_append, List.mem_singleton, beq_iff_eq, or_assoc]
  rw [List.filter_filter]
  apply List.filter_congr
  intro other member
  rw [mocked_wider, Bool.not_or, Bool.and_comm]

/-- Closing the scope undoes what it did. -/
theorem close_agrees (inside : Extends before scope) : before.Agrees scope.close := by
  refine ⟨inside.root_eq, fun name => ?_⟩
  have closed : scope.close.grammar.find? name = _ :=
    Grammar.find?_unmock_each scope.tester.grammar scope.mocked name
  rw [closed, inside.find?_eq]
  by_cases member : name ∈ scope.mocked
  · rcases inside.unmocked name member with ⟨target, found, released⟩
    have restored : (target.withMock true).withMock false = target := by
      rw [Rule.withMock, Rule.withMock, ← released]
    rw [if_pos member, if_pos member, found, Option.map_some, Option.map_some, restored]
  · rw [if_neg member, if_neg member]

theorem ready (inside : Extends before scope) {root : String} (ready : before.Ready root) :
    scope.tester.Ready root := by
  refine ready.of_mocks inside.root_eq fun name target found => ?_
  rw [inside.find?_eq, found]
  by_cases member : name ∈ scope.mocked
  · rw [if_pos member]
    exact Or.inr rfl
  · rw [if_neg member]
    exact Or.inl rfl

/-! ## Opening a scope -/

/-- When all names are defined, the scope is opened, and it lists the names that were not mocked
before, each where it comes first. -/
theorem extendAll_ok (inside : Extends before scope)
    (defined : forall name, name ∈ names -> before.grammar.find? name ≠ none) :
    Exists fun wider => scope.extendAll names = .ok wider ∧ Extends before wider ∧
      wider.mocked =
        scope.mocked ++ (names.filter fun name => !scope.tester.isMocked name).eraseDups := by
  induction names generalizing scope with
  | nil => exact ⟨scope, rfl, inside, (List.append_nil _).symm⟩
  | cons name names inductionHypothesis =>
    rcases Option.ne_none_iff_exists'.mp (defined name List.mem_cons_self) with ⟨target, found⟩
    have later : forall other, other ∈ names -> before.grammar.find? other ≠ none :=
      fun other member => defined other (List.mem_cons_of_mem _ member)
    cases unmocked : scope.tester.isMocked name with
    | true =>
      rcases inductionHypothesis inside later with ⟨wider, opened, insideAll, listed⟩
      refine ⟨wider, ?_, insideAll, ?_⟩
      · rw [extendAll, extend_mocked unmocked]
        exact opened
      · rw [listed, List.filter_cons_of_neg (by simp [unmocked])]
    | false =>
      rcases inside.extend_new found unmocked with ⟨next, extended, insideNext, next_mocked⟩
      rcases inductionHypothesis insideNext later with ⟨wider, opened, insideAll, listed⟩
      refine ⟨wider, ?_, insideAll, ?_⟩
      · rw [extendAll, extended]
        exact opened
      · -- The name is mocked from now on, so it is passed over where it comes again.
        rw [listed, inside.filter_unmocked insideNext next_mocked, next_mocked,
          List.filter_cons_of_pos (by simp [unmocked]), List.eraseDups_cons, List.append_assoc,
          List.singleton_append]

/-- At the first undefined name the scope is closed again. -/
theorem extendAll_error (inside : Extends before scope)
    (missing : names.find? (fun name => !before.grammar.contains name) = some name) :
    Exists fun left => scope.extendAll names = .error (.undefinedRule name none, left) ∧
      before.Agrees left := by
  induction names generalizing scope with
  | nil => cases missing
  | cons first names inductionHypothesis =>
    cases found : before.grammar.find? first with
    | none =>
      rw [List.find?_cons, Grammar.contains_of_missing found] at missing
      cases missing
      refine ⟨scope.close, ?_, inside.close_agrees⟩
      rw [extendAll, inside.extend_error found]
    | some target =>
      rw [List.find?_cons, Grammar.contains_of_found found] at missing
      cases unmocked : scope.tester.isMocked first with
      | true =>
        rw [extendAll, extend_mocked unmocked]
        exact inductionHypothesis inside missing
      | false =>
        rcases inside.extend_new found unmocked with ⟨next, extended, insideNext, -⟩
        rw [extendAll, extended]
        exact inductionHypothesis insideNext missing

end Extends
end MockScope

/-! ## Using scopes -/

namespace RuleTester

variable {tester before : RuleTester} {scope : MockScope} {grammar : Grammar}
  {root name : String} {names : List String}

theorem mock_ok (defined : names.find? (fun name => !before.grammar.contains name) = none) :
    Exists fun scope => before.mock names = .ok scope ∧ MockScope.Extends before scope ∧
      scope.mocked = (names.filter fun name => !before.isMocked name).eraseDups := by
  apply (MockScope.Extends.start before).extendAll_ok
  intro name member missing
  have contains := List.find?_eq_none.mp defined name member
  rw [Grammar.contains_of_missing missing] at contains
  exact contains rfl

theorem mock_error
    (missing : names.find? (fun name => !before.grammar.contains name) = some name) :
    Exists fun left => before.mock names = .error (.undefinedRule name none, left) ∧
      before.Agrees left :=
  (MockScope.Extends.start before).extendAll_error missing

theorem extends_of_mock (opened : before.mock names = .ok scope) :
    MockScope.Extends before scope ∧
      scope.mocked = (names.filter fun name => !before.isMocked name).eraseDups := by
  cases missing : names.find? (fun name => !before.grammar.contains name) with
  | some name =>
    rcases mock_error missing with ⟨left, failed, -⟩
    cases opened.symm.trans failed
  | none =>
    rcases mock_ok missing with ⟨other, opened', inside, listed⟩
    cases opened.symm.trans opened'
    exact ⟨inside, listed⟩

/-- While a scope is open, its names are mocked and what was mocked before, and nothing else. -/
theorem isMocked_of_mock (opened : before.mock names = .ok scope) (name : String) :
    scope.tester.isMocked name = true <-> before.isMocked name = true ∨ name ∈ names := by
  rcases extends_of_mock opened with ⟨inside, listed⟩
  rw [inside.isMocked_iff, listed, List.mem_eraseDups, List.mem_filter]
  by_cases already : before.isMocked name = true
  · exact iff_of_true (Or.inl already) (Or.inl already)
  · simp [already]

/-- A scope that was not opened leaves everything as it was and reports the first name that is not
defined. -/
theorem missing_of_mock {error : GrammarError} {left : RuleTester}
    (failed : before.mock names = .error (error, left)) :
    before.Agrees left ∧ Exists fun name => error = .undefinedRule name none ∧
      names.find? (fun name => !before.grammar.contains name) = some name := by
  cases missing : names.find? (fun name => !before.grammar.contains name) with
  | some name =>
    rcases mock_error missing with ⟨other, failed', agrees⟩
    cases failed.symm.trans failed'
    exact ⟨agrees, name, rfl, rfl⟩
  | none =>
    rcases mock_ok missing with ⟨scope, opened, -⟩
    cases failed.symm.trans opened

/-- A scope fails to open exactly when some name is not defined. -/
theorem mock_error_iff (before : RuleTester) (names : List String) :
    (Exists fun failure => before.mock names = .error failure) <->
      Exists fun name => name ∈ names ∧ before.grammar.contains name = false := by
  cases missing : names.find? (fun name => !before.grammar.contains name) with
  | none =>
    rcases mock_ok missing with ⟨scope, opened, -⟩
    apply iff_of_false
    · rintro ⟨failure, failed⟩
      cases opened.symm.trans failed
    · rintro ⟨name, member, undefined⟩
      have defined := List.find?_eq_none.mp missing name member
      rw [undefined] at defined
      exact defined rfl
  | some name =>
    rcases mock_error missing with ⟨left, failed, -⟩
    have undefined : before.grammar.contains name = false := by
      simpa using List.find?_some missing
    exact iff_of_true ⟨_, failed⟩ ⟨name, List.mem_of_find?_eq_some missing, undefined⟩

/-- However a scope ends, the tester after it agrees with the one before. -/
theorem inScope_agrees (before : RuleTester) (use : ScopeUse) :
    before.Agrees (before.inScope use).2 := by
  rw [inScope]
  cases opened : before.mock use.names with
  | error failure => exact (missing_of_mock opened).1
  | ok scope =>
    have agrees : before.Agrees scope.close := (extends_of_mock opened).1.close_agrees
    cases checked : use.assertions.forM scope.tester.check <;> simpa only [checked] using agrees

/-- A scope of a tester that is ready is not unwound by an error of the grammar. -/
theorem Ready.inScope_ne_unwound (ready : before.Ready root) (use : ScopeUse)
    (other input : String) (error : GrammarError) :
    (before.inScope use).1 ≠ .unwound (.unusable other input error) := by
  rw [inScope]
  cases opened : before.mock use.names with
  | error failure => nofun
  | ok scope =>
    have inside : scope.tester.Ready root := (extends_of_mock opened).1.ready ready
    have expected := inside.usable.forM_ne_unusable use.assertions other input error
    cases checked : use.assertions.forM scope.tester.check with
    | ok passed =>
      simp only [checked]
      nofun
    | error complaint =>
      simp only [checked]
      intro unwound
      rw [checked, ScopeEnd.unwound.inj unwound] at expected
      exact expected rfl

/-- A tester agrees with the one after any number of scopes. -/
theorem inScopes_agrees (tester : RuleTester) (uses : List ScopeUse) :
    tester.Agrees (tester.inScopes uses) := by
  induction uses generalizing tester with
  | nil => exact .refl tester
  | cons use uses inductionHypothesis =>
    exact (tester.inScope_agrees use).trans (inductionHypothesis (tester.inScope use).2)

/-- Scopes of mocks are transactions.  After any scopes, take one more: with any names and any
assertions, whether it is opened or not and whether its assertions hold or not, every rule matches
afterwards what it matched before and is mocked if and only if it was.  While the scope is open,
the rules that were mocked before and the given ones are mocked and no others, and the scope lists
the new ones, each once and where it comes first.  The scope is opened unless a name is undefined,
and then the first such name is reported.  Before, inside and after the scope the tester is ready,
and no scope is unwound by an error of the grammar. -/
theorem scopes_transactional (new : ofGrammar grammar root = .ok tester)
    (earlier : List ScopeUse) (use : ScopeUse) :
    let before := tester.inScopes earlier
    let ended := before.inScope use
    (forall name, ended.2.grammar.effective? name = before.grammar.effective? name ∧
      ended.2.isMocked name = before.isMocked name) ∧
    (forall scope, before.mock use.names = .ok scope ->
      (forall name, scope.tester.isMocked name = true <->
        before.isMocked name = true ∨ name ∈ use.names) ∧
      scope.mocked = (use.names.filter fun name => !before.isMocked name).eraseDups ∧
      scope.tester.Ready root) ∧
    ((Exists fun failure => before.mock use.names = .error failure) <->
      Exists fun name => name ∈ use.names ∧ before.grammar.contains name = false) ∧
    (forall error left, before.mock use.names = .error (error, left) -> Exists fun name =>
      error = .undefinedRule name none ∧
        use.names.find? (fun name => !before.grammar.contains name) = some name) ∧
    (forall root input error, ended.1 ≠ .unwound (.unusable root input error)) ∧
    before.Ready root ∧ ended.2.Ready root := by
  intro before ended
  have agrees : before.Agrees ended.2 := before.inScope_agrees use
  have ready : before.Ready root := (tester.inScopes_agrees earlier).ready (ready_of_new new)
  refine ⟨fun name => ⟨agrees.effective?_eq name, agrees.isMocked_eq name⟩, ?_,
    before.mock_error_iff use.names, ?_, ready.inScope_ne_unwound use, ready, agrees.ready ready⟩
  · intro scope opened
    rcases extends_of_mock opened with ⟨inside, listed⟩
    exact ⟨isMocked_of_mock opened, listed, inside.ready ready⟩
  · intro error left failed
    exact (missing_of_mock failed).2

/-- A scope fails at its second name and leaves no mock.  The next one gets a name that is mocked
already and another one twice; it lists and releases only the latter. -/
theorem scopes_transactional_rolled_back :
    let grammar : Grammar :=
      ⟨[⟨"a", .sequence [.rule "b", .rule "c"], false⟩, ⟨"b", .optional (.rule "c"), false⟩,
        ⟨"c", .word "x", true⟩], 0⟩
    let tester : RuleTester := ⟨grammar, "a"⟩
    let failing : ScopeUse := ⟨["b", "d", "a"], []⟩
    let use : ScopeUse := ⟨["c", "b", "b"], [.accepts "b c"]⟩
    let before := tester.inScopes [failing]
    ofGrammar grammar "a" = .ok tester ∧
      (Exists fun left => tester.mock failing.names = .error (.undefinedRule "d" none, left)) ∧
      (Exists fun scope => before.mock use.names = .ok scope ∧ scope.mocked = ["b"] ∧
        scope.tester.isMocked "b" = true ∧ scope.tester.Ready "a") ∧
      (before.inScope use).2.isMocked "b" = false ∧ (before.inScope use).2.isMocked "c" = true := by
  intro grammar tester failing use before
  have new : ofGrammar grammar "a" = .ok tester := by rfl
  rcases scopes_transactional new [failing] use with ⟨restored, inside, -⟩
  rcases scopes_transactional new [] failing with ⟨-, -, fails, reported, -⟩
  refine ⟨new, ?_, ?_, ?_, ?_⟩
  · rcases fails.mpr ⟨"d", by decide, by decide⟩ with ⟨⟨error, left⟩, failed⟩
    rcases reported error left failed with ⟨name, rfl, first⟩
    cases first
    exact ⟨left, failed⟩
  · cases opened : before.mock use.names with
    | error failure => cases opened
    | ok scope =>
      rcases inside scope opened with ⟨mocked, listed, ready⟩
      exact ⟨scope, rfl, listed, (mocked "b").mpr (Or.inr (by decide)), ready⟩
  · exact (restored "b").2
  · exact (restored "c").2

end RuleTester
end Packrat
