import Packrat.Match.Parse
import Packrat.Proofs.Validation

namespace Packrat

/-!
# A match sees only what can be reached

What a grammar says about a rule is the expression that the rule matches at present, or that there
is no such rule.  A match of a root asks only about rules that can be reached from it by references.
So two grammars that say the same about these rules match the root alike.  It does not matter what
other rules there are, which definitions are hidden under mocks, or how often a grammar was changed.

The search for undefined rules follows the same references in the same order, so its answer is the
same too.
-/

namespace Grammar

/-- Two grammars say the same about every rule that can be reached from a root in the first of them:
it matches the same expression in both, or is undefined in both. -/
def AlikeFrom (root : String) (grammar other : Grammar) : Prop :=
  forall name, grammar.Reaches root name -> other.effective? name = grammar.effective? name

variable {grammar other : Grammar} {root name : String} {target : Rule} {names : List String}

theorem effective?_of_found (found : grammar.find? name = some target) :
    grammar.effective? name = some target.effective := by
  rw [effective?, found]
  rfl

theorem Reaches.mem_of_closed (reaches : grammar.Reaches root name) (rooted : root ∈ names)
    (closed : forall name, name ∈ names -> forall expression,
      grammar.effective? name = some expression -> expression.mentions ⊆ names) :
    name ∈ names := by
  induction reaches with
  | refl => exact rooted
  | tail _ refers inductionHypothesis =>
    rcases refers with ⟨target, found, mentioned⟩
    exact closed _ inductionHypothesis _ (effective?_of_found found) mentioned

namespace AlikeFrom

variable (alike : AlikeFrom root grammar other)
include alike

theorem undefined (reaches : grammar.Reaches root name) (missing : grammar.find? name = none) :
    other.find? name = none := by
  have same := alike name reaches
  rw [effective?, effective?, missing] at same
  exact Option.map_eq_none_iff.mp same

theorem defined (reaches : grammar.Reaches root name) (found : grammar.find? name = some target) :
    Exists fun twin => other.find? name = some twin ∧ twin.effective = target.effective := by
  have same := alike name reaches
  rw [effective?_of_found found] at same
  exact Option.map_eq_some_iff.mp same

/-! ## The search for undefined rules -/

/-- Two searches with the same queue and the same seen names have the same answer, however many
steps each of them may take. -/
theorem follow_eq {steps steps' : Nat} {seen : List String} {queue : List Visit}
    (following : Following grammar root steps seen queue)
    (following' : Following other root steps' seen queue)
    (reached : forall visit, visit ∈ queue -> grammar.Reaches root visit.name) :
    follow other steps' seen queue = follow grammar steps seen queue := by
  induction steps generalizing steps' seen queue with
  | zero =>
    have empty := List.length_eq_zero_iff.mp (Nat.le_zero.mp following.length_le)
    subst empty
    cases steps' <;> rfl
  | succ steps inductionHypothesis =>
    cases queue with
    | nil => cases steps' <;> rfl
    | cons visit queue =>
      cases steps' with
      | zero => exact absurd following'.length_le (Nat.not_succ_le_zero _)
      | succ steps' =>
        have reaches := reached visit List.mem_cons_self
        rw [follow, follow]
        cases found : grammar.find? visit.name with
        | none => rw [alike.undefined reaches found]
        | some target =>
          rcases alike.defined reaches found with ⟨twin, found', same⟩
          have named : twin.name = target.name :=
            (mem_rules_of_find? found').2.trans (mem_rules_of_find? found).2.symm
          simp only [found', same, named]
          have next := following.step found rfl
          have next' := following'.step found' rfl
          rw [same, named] at next'
          refine inductionHypothesis next next' fun later waiting => ?_
          rcases List.mem_append.mp waiting with earlier | fresh
          · exact reached later (List.mem_cons_of_mem _ earlier)
          · rcases List.mem_map.mp fresh with ⟨mentioned, listed, rfl⟩
            have refers := Expression.mem_references.mp (List.mem_filter.mp listed).1
            exact reaches.tail ⟨target, found, refers⟩

theorem validate_eq : other.validate root = grammar.validate root := by
  apply alike.follow_eq .start .start
  intro visit waiting
  cases List.mem_singleton.mp waiting
  exact .refl

end AlikeFrom
end Grammar

/-! ## Evaluation -/

namespace Matching

variable {grammar other : Grammar} {tokens : Array Token} {active : List Frame}
  {root rule : String} {expression : Expression} {position : Nat} {answer : Answer} {log : Log}

/-- An expression whose mentions can all be reached from the root evaluates to the same in both
grammars, errors and refused calls included. -/
theorem Evaluates.of_alikeFrom (alike : Grammar.AlikeFrom root grammar other)
    (evaluates : Evaluates grammar tokens active rule expression position answer log)
    (reached : forall name, name ∈ expression.mentions -> grammar.Reaches root name) :
    Evaluates other tokens active rule expression position answer log := by
  induction evaluates with
  | literal => exact .literal
  | mock => exact .mock
  | undefined missing => exact .undefined (alike.undefined (reached _ List.mem_cons_self) missing)
  | refused found member =>
    rcases alike.defined (reached _ List.mem_cons_self) found with ⟨twin, found', -⟩
    exact .refused found' member
  | called found absent _ inductionHypothesis =>
    have reaches := reached _ List.mem_cons_self
    rcases alike.defined reaches found with ⟨twin, found', same⟩
    have inside := inductionHypothesis fun name mentioned =>
      reaches.tail ⟨_, found, mentioned⟩
    rw [← same] at inside
    exact .called found' absent inside
  | sequenceNil => exact .sequenceNil
  | sequenceStops _ stops inductionHypothesis =>
    exact .sequenceStops
      (inductionHypothesis fun name mentioned => reached name (List.mem_append_left _ mentioned))
      stops
  | sequenceGoesOn _ _ itemHypothesis restHypothesis =>
    exact .sequenceGoesOn
      (itemHypothesis fun name mentioned => reached name (List.mem_append_left _ mentioned))
      (restHypothesis fun name mentioned => reached name (List.mem_append_right _ mentioned))
  | choiceNil => exact .choiceNil
  | choiceStops _ stops inductionHypothesis =>
    exact .choiceStops
      (inductionHypothesis fun name mentioned => reached name (List.mem_append_left _ mentioned))
      stops
  | choiceGoesOn _ _ firstHypothesis restHypothesis =>
    exact .choiceGoesOn
      (firstHypothesis fun name mentioned => reached name (List.mem_append_left _ mentioned))
      (restHypothesis fun name mentioned => reached name (List.mem_append_right _ mentioned))
  | optional _ inductionHypothesis => exact .optional (inductionHypothesis reached)
  | zeroOrMoreStops _ stays inductionHypothesis =>
    exact .zeroOrMoreStops (inductionHypothesis reached) stays
  | zeroOrMoreGoesOn _ moves _ bodyHypothesis restHypothesis =>
    exact .zeroOrMoreGoesOn (bodyHypothesis reached) moves (restHypothesis reached)
  | oneOrMoreStops _ stays inductionHypothesis =>
    exact .oneOrMoreStops (inductionHypothesis reached) stays
  | oneOrMoreGoesOn _ moves _ bodyHypothesis restHypothesis =>
    exact .oneOrMoreGoesOn (bodyHypothesis reached) moves (restHypothesis reached)

theorem Evaluates.call_of_alikeFrom (alike : Grammar.AlikeFrom root grammar other)
    (evaluates : Evaluates grammar tokens active rule (.rule root) position answer log) :
    Evaluates other tokens active rule (.rule root) position answer log := by
  apply evaluates.of_alikeFrom alike
  intro name mentioned
  cases List.mem_singleton.mp mentioned
  exact .refl

end Matching

/-! ## Matchers -/

namespace Grammar

/-- Two grammars that say the same about every rule that can be reached from a root match the root
alike: every match of it at a place and of the whole input comes to the same tree, the same failure
or the same error, with or without a memory and whatever was matched before.  The same holds of the
matches that check the root first, because the check reports the same. -/
theorem match_eq_of_alikeFrom (grammar other : Grammar) (root : String)
    (alike : AlikeFrom root grammar other) :
    (forall tokens memoize memoize' memory memory' start,
      ((Matcher.mk other tokens memoize' memory').matchRule root start).1 =
        ((Matcher.mk grammar tokens memoize memory).matchRule root start).1) ∧
    (forall tokens memoize memoize' memory memory',
      ((Matcher.mk other tokens memoize' memory').matchEntirely root).1 =
        ((Matcher.mk grammar tokens memoize memory).matchEntirely root).1) ∧
    other.validate root = grammar.validate root ∧
    (forall tokens start, other.matchRule root tokens start = grammar.matchRule root tokens start) ∧
    forall tokens memoize memoize',
      other.matchEntirely root tokens memoize' = grammar.matchEntirely root tokens memoize := by
  have checked := alike.validate_eq
  have rules : forall tokens memoize memoize' memory memory' start,
      ((Matcher.mk other tokens memoize' memory').matchRule root start).1 =
        ((Matcher.mk grammar tokens memoize memory).matchRule root start).1 :=
    fun _ _ _ _ _ _ => Matcher.matchRule_congr fun _ _ => .call_of_alikeFrom alike
  have whole : forall tokens memoize memoize' memory memory',
      ((Matcher.mk other tokens memoize' memory').matchEntirely root).1 =
        ((Matcher.mk grammar tokens memoize memory).matchEntirely root).1 :=
    fun _ _ _ _ _ => Matcher.matchEntirely_congr rfl fun _ _ => .call_of_alikeFrom alike
  refine ⟨rules, whole, checked, fun tokens start => ?_, fun tokens memoize memoize' => ?_⟩
  · rw [matchRule, matchRule, checked, rules]
  · rw [matchEntirely, matchEntirely, checked, whole]

/-- A mock hides a definition that would not end, and an unreachable rule is undefined in one of the
grammars.  What is reported in the first grammar is reported in the other one: a tree for one text,
and for another text the error about a rule that is undefined in both. -/
theorem match_eq_of_alikeFrom_mocked :
    let grammar : Grammar :=
      ⟨[⟨"a", .sequence [.rule "b", .optional (.sequence [.op ",", .rule "c"])], false⟩,
        ⟨"b", .word "x", true⟩, ⟨"d", .word "y", false⟩], 0⟩
    let other : Grammar :=
      ⟨[⟨"a", .sequence [.rule "b", .optional (.sequence [.op ",", .rule "c"])], false⟩,
        ⟨"b", .sequence [.rule "b", .rule "d"], true⟩], 7⟩
    let short : Array Token := #[⟨.identifier, "B", default, default⟩]
    let long : Array Token := short.push ⟨.operator, ",", default, default⟩
    AlikeFrom "a" grammar other ∧
      ((Matcher.mk other short false {}).matchRule "a" 0).1 =
        .ok (.success (.node "a" 0 1 [.node "b" 0 1 [.leaf 0]])) ∧
      ((Matcher.mk other long true {}).matchEntirely "a").1 = .error (.undefinedRule "c" none) := by
  intro grammar other short long
  have alike : AlikeFrom "a" grammar other := by
    intro name reaches
    have listed : name ∈ ["a", "b", "c"] :=
      reaches.mem_of_closed (by decide) (by decide)
    simp only [List.mem_cons, List.not_mem_nil, or_false] at listed
    rcases listed with rfl | rfl | rfl <;> decide
  have matched : ((Matcher.mk grammar short true {}).matchRule "a" 0).1 =
      .ok (.success (.node "a" 0 1 [.node "b" 0 1 [.leaf 0]])) :=
    Matcher.matchRule_of_unremembered rfl
  have failed : ((Matcher.mk grammar long true {}).matchEntirely "a").1 =
      .error (.undefinedRule "c" none) :=
    Matcher.matchEntirely_of_unremembered rfl
  rcases match_eq_of_alikeFrom grammar other "a" alike with ⟨rules, whole, -⟩
  exact ⟨alike, (rules short true false {} {} 0).trans matched,
    (whole long true true {} {}).trans failed⟩

end Grammar
end Packrat
