import Packrat.Match.Parse
import Packrat.Proofs.Distance

namespace Packrat

/-!
# Equal generations mean equal matches

Not every change of a grammar gives it a new generation.  A rule that is defined for the first time
and a call that fails or has nothing to do leave the old one.  But such a change keeps what the
grammar says about every rule that it has, and adds no mock.  So between two states of a run with
the same generation, nothing happened but changes of this kind.

A match that met no undefined rule has asked only for rules that the grammar has.  It comes to the
same in every grammar that keeps these, whatever other rules are defined there.
-/

/-- A call that may change a grammar.  Some calls leave it as it is, such as the release of a mock
that is not set, and some fail. -/
inductive Change where
  | define (name : String) (definition : Expression)
  | mock (name : String)
  | unmock (name : String)
  | unmockAll

namespace Grammar

/-- The grammar after a call.  A call that fails leaves it as it was. -/
def change (grammar : Grammar) : Change -> Grammar
  | .define name definition => grammar.define name definition
  | .mock name => (grammar.mock name).toOption.getD grammar
  | .unmock name => (grammar.unmock name).toOption.getD grammar
  | .unmockAll => grammar.unmockAll

def changes (grammar : Grammar) (run : List Change) : Grammar :=
  run.foldl change grammar

/-- The generation as a counter of 64 bits holds it.  After enough changes it shows a value again
that it has shown before. -/
def stamp (grammar : Grammar) : UInt64 :=
  UInt64.ofNat grammar.generation

/-- A later grammar keeps an earlier one when it has the same rules under the same names, and no
other mocks. -/
structure Keeps (earlier later : Grammar) : Prop where
  find?_eq : forall name target, earlier.find? name = some target ->
    later.find? name = some target
  mockedRules_eq : later.mockedRules = earlier.mockedRules
  isMocked_new : forall name, earlier.find? name = none -> later.isMocked name = false

variable {grammar earlier middle later : Grammar} {name : String} {target : Rule}
  {definition : Expression} {run : List Change}

namespace Keeps

theorem refl (grammar : Grammar) : grammar.Keeps grammar := by
  refine ⟨fun _ _ found => found, rfl, fun name missing => ?_⟩
  rw [isMocked, missing]
  rfl

theorem isMocked_eq (keeps : earlier.Keeps later) (name : String) :
    later.isMocked name = earlier.isMocked name := by
  cases found : earlier.find? name with
  | none =>
    have unmocked : earlier.isMocked name = false := by
      rw [isMocked, found]
      rfl
    rw [keeps.isMocked_new name found, unmocked]
  | some target => rw [isMocked, isMocked, keeps.find?_eq name target found, found]

theorem trans (first : earlier.Keeps middle) (second : middle.Keeps later) :
    earlier.Keeps later := by
  constructor
  · intro name target found
    exact second.find?_eq name target (first.find?_eq name target found)
  · exact second.mockedRules_eq.trans first.mockedRules_eq
  · intro name missing
    rw [second.isMocked_eq, first.isMocked_new name missing]

end Keeps

/-! ## One change -/

theorem filter_mocked_place {rule : Rule} {rules : List Rule} (unmocked : rule.mocked = false)
    (new : forall other, other ∈ rules -> other.name ≠ rule.name) :
    (place rule rules).filter Rule.mocked = rules.filter Rule.mocked := by
  induction rules with
  | nil => simp [place, unmocked]
  | cons other rest inductionHypothesis =>
    have different : rule.name ≠ other.name := (new other List.mem_cons_self).symm
    have later := inductionHypothesis fun other member => new other (List.mem_cons_of_mem _ member)
    rw [place, if_neg different]
    split
    · simp [unmocked]
    · simp only [List.filter_cons, later]

theorem keeps_define (missing : grammar.find? name = none) :
    grammar.Keeps (grammar.define name definition) := by
  constructor
  · intro other target found
    have different : other ≠ name := by
      rintro rfl
      rw [missing] at found
      cases found
    rw [find?_define, if_neg different, found]
  · have new : forall rule, rule ∈ grammar.rules -> rule.name ≠ name := by
      intro rule member same
      have skipped := List.find?_eq_none.mp missing rule member
      exact skipped (by simpa using same)
    exact congrArg (List.map Rule.name) (filter_mocked_place rfl new)
  · intro other missing'
    rw [isMocked, find?_define, missing']
    split <;> rfl

/-- Whatever a call does, the grammar has the next generation, or it has the same one and keeps its
rules and mocks. -/
theorem change_bumps_or_keeps (grammar : Grammar) (change : Change) :
    (grammar.change change).generation = grammar.generation + 1 ∨
      (grammar.change change).generation = grammar.generation ∧
        grammar.Keeps (grammar.change change) := by
  have unchanged : grammar.generation = grammar.generation ∧ grammar.Keeps grammar :=
    ⟨rfl, .refl grammar⟩
  cases change with
  | define name definition =>
    -- A first definition is the only change of the rules that the generation does not show.
    cases found : grammar.find? name with
    | none =>
      refine Or.inr ⟨?_, keeps_define found⟩
      simp [Grammar.change, define, contains_of_missing found]
    | some target =>
      left
      simp [Grammar.change, define, contains_of_found found]
  | mock name =>
    simp only [Grammar.change, mock, get]
    cases grammar.find? name with
    | none => exact Or.inr unchanged
    | some target => exact Or.inl rfl
  | unmock name =>
    simp only [Grammar.change, unmock, get]
    cases grammar.find? name with
    | none => exact Or.inr unchanged
    | some target =>
      by_cases mocked : target.mocked
      · simp only [Except.map, mocked, if_true]
        exact Or.inl rfl
      · simp only [Except.map, mocked]
        exact Or.inr unchanged
  | unmockAll =>
    simp only [Grammar.change, unmockAll]
    by_cases mocked : grammar.rules.any Rule.mocked
    · rw [if_pos mocked]
      exact Or.inl rfl
    · rw [if_neg mocked]
      exact Or.inr unchanged

/-! ## A run of changes -/

theorem changes_append (before after : List Change) :
    grammar.changes (before ++ after) = (grammar.changes before).changes after :=
  List.foldl_append

theorem generation_le_changes (grammar : Grammar) (run : List Change) :
    grammar.generation ≤ (grammar.changes run).generation := by
  induction run generalizing grammar with
  | nil => exact Nat.le_refl _
  | cons change run inductionHypothesis =>
    have later : _ ≤ (grammar.changes (change :: run)).generation :=
      inductionHypothesis (grammar.change change)
    rcases grammar.change_bumps_or_keeps change with bumps | ⟨stays, -⟩ <;> omega

/-- Each call gives at most one new generation. -/
theorem generation_changes_le (grammar : Grammar) (run : List Change) :
    (grammar.changes run).generation ≤ grammar.generation + run.length := by
  induction run generalizing grammar with
  | nil => exact Nat.le_refl _
  | cons change run inductionHypothesis =>
    have later : (grammar.changes (change :: run)).generation ≤ _ :=
      inductionHypothesis (grammar.change change)
    rw [List.length_cons]
    rcases grammar.change_bumps_or_keeps change with bumps | ⟨stays, -⟩ <;> omega

/-- A run that ends in the generation in which it began keeps the rules and mocks. -/
theorem keeps_changes (grammar : Grammar) (run : List Change)
    (same : (grammar.changes run).generation = grammar.generation) :
    grammar.Keeps (grammar.changes run) := by
  induction run generalizing grammar with
  | nil => exact .refl grammar
  | cons change run inductionHypothesis =>
    have later : _ ≤ (grammar.changes (change :: run)).generation :=
      generation_le_changes (grammar.change change) run
    rcases grammar.change_bumps_or_keeps change with bumps | ⟨stays, keeps⟩
    · omega
    · exact keeps.trans (inductionHypothesis (grammar.change change) (same.trans stays.symm))

/-- Within fewer calls than the counter has values, a counter that shows the same value has not
moved. -/
theorem generation_eq_of_stamp_eq (few : run.length < UInt64.size)
    (same : grammar.stamp = (grammar.changes run).stamp) :
    (grammar.changes run).generation = grammar.generation := by
  have wrapped := congrArg UInt64.toNat same
  simp only [stamp, UInt64.toNat_ofNat'] at wrapped
  rw [UInt64.size] at few
  have lower := grammar.generation_le_changes run
  have upper := grammar.generation_changes_le run
  omega

end Grammar

/-! ## A match sees only the rules that it calls -/

namespace Matching

variable {earlier later : Grammar} {tokens : Array Token} {active : List Frame} {rule : String}
  {expression : Expression} {position : Nat} {answer : Answer} {log : Log}

theorem Answer.ne_error_of_map {change : Option Step -> Option Step}
    (answered : forall error, answer.map change ≠ .error error) :
    forall error, answer ≠ .error error := by
  rintro error rfl
  exact answered error rfl

/-- What meets no undefined rule evaluates to the same in every grammar that keeps the rules. -/
theorem Evaluates.of_keeps (keeps : earlier.Keeps later)
    (evaluates : Evaluates earlier tokens active rule expression position answer log)
    (answered : forall error, answer ≠ .error error) :
    Evaluates later tokens active rule expression position answer log := by
  induction evaluates with
  | literal => exact .literal
  | mock => exact .mock
  -- Only here could a grammar with more rules answer something else.
  | undefined => exact absurd rfl (answered _)
  | refused found member => exact .refused (keeps.find?_eq _ _ found) member
  | called found absent _ inductionHypothesis =>
    have inside := inductionHypothesis (Answer.ne_error_of_map answered)
    exact .called (keeps.find?_eq _ _ found) absent inside
  | sequenceNil => exact .sequenceNil
  | sequenceStops _ stops inductionHypothesis =>
    exact .sequenceStops (inductionHypothesis answered) stops
  | sequenceGoesOn _ _ itemHypothesis restHypothesis =>
    have item := itemHypothesis nofun
    exact .sequenceGoesOn item (restHypothesis (Answer.ne_error_of_map answered))
  | choiceNil => exact .choiceNil
  | choiceStops _ stops inductionHypothesis =>
    exact .choiceStops (inductionHypothesis answered) stops
  | choiceGoesOn _ _ firstHypothesis restHypothesis =>
    have first := firstHypothesis nofun
    exact .choiceGoesOn first (restHypothesis answered)
  | optional _ inductionHypothesis =>
    exact .optional (inductionHypothesis (Answer.ne_error_of_map answered))
  | zeroOrMoreStops _ stays inductionHypothesis =>
    exact .zeroOrMoreStops (inductionHypothesis (Answer.ne_error_of_map answered)) stays
  | zeroOrMoreGoesOn _ moves _ bodyHypothesis restHypothesis =>
    have body := bodyHypothesis nofun
    exact .zeroOrMoreGoesOn body moves (restHypothesis (Answer.ne_error_of_map answered))
  | oneOrMoreStops _ stays inductionHypothesis =>
    exact .oneOrMoreStops (inductionHypothesis (Answer.ne_error_of_map answered)) stays
  | oneOrMoreGoesOn _ moves _ bodyHypothesis restHypothesis =>
    have body := bodyHypothesis nofun
    exact .oneOrMoreGoesOn body moves (restHypothesis (Answer.ne_error_of_map answered))

end Matching

/-- An outcome stays the outcome in every grammar that keeps the rules, with or without a memory
and whatever was matched before. -/
theorem Matcher.matchRule_of_keeps {earlier later : Grammar} {tokens : Array Token}
    {memoize memoize' : Bool} {memory other : Session} {rule : String} {start : Nat}
    {outcome : Outcome} (keeps : earlier.Keeps later)
    (matched : ((Matcher.mk earlier tokens memoize memory).matchRule rule start).1 = .ok outcome) :
    ((Matcher.mk later tokens memoize' other).matchRule rule start).1 = .ok outcome := by
  rcases (Matcher.mk earlier tokens memoize memory).matchRule_evaluates rule start with
    ⟨result, log, evaluates, reports⟩
  rcases (Matcher.mk later tokens memoize' other).matchRule_evaluates rule start with
    ⟨result', log', evaluates', reports'⟩
  have answered : forall error, result.map (Option.map Tree.step) ≠ .error error := by
    intro error failed
    rcases result with error' | found
    · rw [matched] at reports
      cases reports
    · cases failed
  rcases (evaluates.of_keeps keeps answered).unique evaluates' with ⟨same, rfl⟩
  rw [reports', ← Tree.map_step_injective same, ← reports, matched]

namespace Grammar

theorem matchRule_of_keeps {earlier later : Grammar} {tokens : Array Token} {rule : String}
    {start : Nat} {outcome : Outcome} (keeps : earlier.Keeps later)
    (matched : earlier.matchRule rule tokens start = .ok outcome) :
    later.matchRule rule tokens start = .ok outcome := by
  unfold matchRule at matched ⊢
  cases validated : earlier.validate rule with
  | error error =>
    rw [validated] at matched
    cases matched
  | ok checked =>
    have complete : later.Complete rule := by
      apply (complete_of_validate validated).of_mentions_subset
      intro name target found
      exact ⟨target, keeps.find?_eq name target found, List.Subset.refl _⟩
    rw [validated] at matched
    rw [validate_eq_ok_iff.mpr complete]
    exact Matcher.matchRule_of_keeps keeps matched

/-! ## The generation as a key -/

/-- Two states of a run of changes that show the same generation have the same mocks.  Every rule
of the earlier one matches the same expression in the later one, and whenever a match has an
outcome in the earlier one, it has the same outcome in the later one. -/
theorem match_eq_of_stamp_eq (grammar : Grammar) (before between : List Change)
    (few : (before ++ between).length < UInt64.size)
    (same : (grammar.changes before).stamp = (grammar.changes (before ++ between)).stamp) :
    let earlier := grammar.changes before
    let later := grammar.changes (before ++ between)
    later.mockedRules = earlier.mockedRules ∧
      (forall name, later.isMocked name = earlier.isMocked name) ∧
      (forall name expression, earlier.effective? name = some expression ->
        later.effective? name = some expression) ∧
      (forall tokens memoize memory other rule start outcome,
        ((Matcher.mk earlier tokens memoize memory).matchRule rule start).1 = .ok outcome ->
        ((Matcher.mk later tokens memoize other).matchRule rule start).1 = .ok outcome) ∧
      forall tokens rule start outcome, earlier.matchRule rule tokens start = .ok outcome ->
        later.matchRule rule tokens start = .ok outcome := by
  intro earlier later
  have keeps : earlier.Keeps later := by
    have short : between.length < UInt64.size := by
      rw [List.length_append] at few
      omega
    have split : later = earlier.changes between := changes_append before between
    rw [split]
    apply keeps_changes
    apply generation_eq_of_stamp_eq short
    rw [← split]
    exact same
  refine ⟨keeps.mockedRules_eq, keeps.isMocked_eq, fun name expression effective => ?_, ?_, ?_⟩
  · rcases Option.map_eq_some_iff.mp effective with ⟨target, found, rfl⟩
    rw [effective?, keeps.find?_eq name target found]
    rfl
  · intro tokens memoize memory other rule start outcome matched
    exact Matcher.matchRule_of_keeps keeps matched
  · intro tokens rule start outcome matched
    exact matchRule_of_keeps keeps matched

/-- A new rule, a release with nothing to release and a mock of an undefined rule keep the
generation.  The tree that was found before them is found after them. -/
theorem match_eq_of_stamp_eq_new_rule :
    let grammar : Grammar :=
      ⟨[⟨"a", .sequence [.rule "c", .word "x"], false⟩, ⟨"c", .word "y", false⟩], 0⟩
    let before : List Change := [.mock "c"]
    let between : List Change := [.define "b" (.rule "a"), .unmock "a", .mock "d"]
    let earlier := grammar.changes before
    let later := grammar.changes (before ++ between)
    let tokens : Array Token :=
      #[⟨.identifier, "C", default, default⟩, ⟨.keyword, "x", default, default⟩]
    let tree : Tree := .node "a" 0 2 [.node "c" 0 1 [.leaf 0], .leaf 1]
    earlier.stamp = later.stamp ∧ later ≠ earlier ∧
      ((Matcher.mk earlier tokens true {}).matchRule "a" 0).1 = .ok (.success tree) ∧
      later.mockedRules = earlier.mockedRules ∧ later.effective? "c" = some .mock ∧
      ((Matcher.mk later tokens true {}).matchRule "a" 0).1 = .ok (.success tree) := by
  intro grammar before between earlier later tokens tree
  have few : (before ++ between).length < UInt64.size := by decide
  have same : earlier.stamp = later.stamp := by decide
  have matched :
      ((Matcher.mk earlier tokens true {}).matchRule "a" 0).1 = .ok (.success tree) :=
    Matcher.matchRule_of_unremembered rfl
  rcases match_eq_of_stamp_eq grammar before between few same with
    ⟨mocks, -, effective, outcomes, -⟩
  have mocked : earlier.effective? "c" = some .mock := by decide
  exact ⟨same, by decide, matched, mocks, effective "c" .mock mocked,
    outcomes tokens true {} {} "a" 0 _ matched⟩

end Grammar
end Packrat
