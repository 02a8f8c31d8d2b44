import Packrat.Proofs.Depth

namespace Packrat
namespace Matcher

/-!
# Outcomes of matchers

A matcher reports what the evaluation of its rule comes to: the tree, the error, or the furthest
failure of the log.  The evaluation knows nothing of a memory and nothing of earlier matches, so
neither of them changes what is reported.
-/

/-- What a match reports of a result and a furthest failure. -/
def report (rule : String) (start : Nat) (furthest : Option Failure) :
    Except GrammarError (Option Tree) -> Except GrammarError Outcome
  | .error error => .error error
  | .ok (some tree) => .ok (.success tree)
  | .ok none => .ok (.failure (furthest.getD ⟨start, rule, []⟩))

/-- What a match of the whole input reports.  A tree that ends before the input does is a failure
there. -/
def reportEntirely (tokens : Array Token) (rule : String) (furthest : Option Failure) :
    Except GrammarError (Option Tree) -> Except GrammarError Outcome
  | .ok (some tree) =>
    if tree.stop < endOf tokens then .ok (.failure (leftover { furthest } rule tree.stop))
    else .ok (.success tree)
  | other => report rule 0 furthest other

variable (matcher : Matcher) (rule : String) (start : Nat)

/-- A match is a run from a fresh session, and reports what the run comes to.  The matcher keeps the
session of the run, or its own one after an error. -/
theorem matchRule_runs :
    Exists fun result => Exists fun after => Exists fun trace => Exists fun kept =>
      Matching.Runs matcher.grammar matcher.tokens matcher.memoize [] rule (.rule rule) start {}
          (result.map (Option.map Tree.step)) after trace ∧
        matcher.matchRule rule start =
          (report rule start after.furthest result, { matcher with session := kept }) ∧
        (kept = after ∨ kept = matcher.session ∧ Exists fun error => result = .error error) := by
  unfold matchRule Grammar.get
  cases found : matcher.grammar.find? rule with
  | none =>
    exact ⟨.error (.undefinedRule rule none), {}, _, matcher.session, .undefined found, rfl,
      Or.inr ⟨rfl, _, rfl⟩⟩
  | some target =>
    rcases Matching.start_runs matcher.grammar matcher.tokens matcher.memoize rule rule start with
      ⟨result, after, trace, ends, runs⟩
    refine ⟨result, after, trace, after, runs, ?_, Or.inl rfl⟩
    simp only [EStateM.run]
    rw [ends]
    rcases result with error | none | tree <;> rfl

/-- A match of the whole input is a run from the beginning and a fresh session. -/
theorem matchEntirely_runs :
    Exists fun result => Exists fun after => Exists fun trace =>
      Matching.Runs matcher.grammar matcher.tokens matcher.memoize [] rule (.rule rule) 0 {}
          (result.map (Option.map Tree.step)) after trace ∧
        (matcher.matchEntirely rule).1 =
          reportEntirely matcher.tokens rule after.furthest result := by
  rcases matcher.matchRule_runs rule 0 with ⟨result, after, trace, kept, runs, reports, keeps⟩
  refine ⟨result, after, trace, runs, ?_⟩
  unfold matchEntirely
  rw [reports]
  rcases result with error | none | tree
  · rfl
  · rfl
  · rcases keeps with rfl | ⟨-, error, impossible⟩
    case inr => cases impossible
    have same : matcher.endOfInput = endOf matcher.tokens := rfl
    simp only [report, reportEntirely, ← same]
    split <;> rfl

/-- A match reports the evaluation of its rule. -/
theorem matchRule_evaluates :
    Exists fun result => Exists fun log =>
      Matching.Evaluates matcher.grammar matcher.tokens [] rule (.rule rule) start
          (result.map (Option.map Tree.step)) log ∧
        (matcher.matchRule rule start).1 = report rule start (log.furthest none) result := by
  rcases matcher.matchRule_runs rule start with ⟨result, after, trace, kept, runs, reports, -⟩
  rcases runs.evaluates Session.sound_empty with ⟨log, evaluates, -, follows⟩
  exact ⟨result, log, evaluates, by rw [reports, follows.furthest_eq]⟩

/-- A match of the whole input reports the evaluation of its rule at the beginning. -/
theorem matchEntirely_evaluates :
    Exists fun result => Exists fun log =>
      Matching.Evaluates matcher.grammar matcher.tokens [] rule (.rule rule) 0
          (result.map (Option.map Tree.step)) log ∧
        (matcher.matchEntirely rule).1 =
          reportEntirely matcher.tokens rule (log.furthest none) result := by
  rcases matcher.matchEntirely_runs rule with ⟨result, after, trace, runs, reports⟩
  rcases runs.evaluates Session.sound_empty with ⟨log, evaluates, -, follows⟩
  exact ⟨result, log, evaluates, by rw [reports, follows.furthest_eq]⟩

/-- A reported tree is the answer of the evaluation. -/
theorem evaluates_of_success {matcher : Matcher} {rule : String} {start : Nat} {tree : Tree}
    (matched : (matcher.matchRule rule start).1 = .ok (.success tree)) :
    Exists fun log => Matching.Evaluates matcher.grammar matcher.tokens [] rule (.rule rule) start
      (.ok (some tree.step)) log := by
  rcases matcher.matchRule_evaluates rule start with ⟨result, log, evaluates, reports⟩
  rw [matched] at reports
  rcases result with error | none | found <;> cases reports
  exact ⟨log, evaluates⟩

end Matcher

namespace Tree

theorem step_injective {tree other : Tree} (same : tree.step = other.step) : tree = other :=
  (List.cons.inj (Step.mk.inj same).2).1

theorem map_step_injective {result other : Except GrammarError (Option Tree)}
    (same : result.map (Option.map step) = other.map (Option.map step)) : result = other := by
  rcases result with error | none | tree <;> rcases other with error' | none | tree'
  case ok.some.ok.some =>
    rw [step_injective (Option.some.inj (Except.ok.inj same))]
  all_goals cases same <;> rfl

end Tree

/-! ## Equal evaluations are reported alike -/

namespace Matcher

variable {first second : Matcher} {rule : String} {start : Nat}

/-- When what a rule evaluates to for one matcher is what it evaluates to for another one, they
report the same. -/
theorem matchRule_congr
    (carries : forall answer log,
      Matching.Evaluates first.grammar first.tokens [] rule (.rule rule) start answer log ->
        Matching.Evaluates second.grammar second.tokens [] rule (.rule rule) start answer log) :
    (second.matchRule rule start).1 = (first.matchRule rule start).1 := by
  rcases first.matchRule_evaluates rule start with ⟨result, log, evaluates, reports⟩
  rcases second.matchRule_evaluates rule start with ⟨result', log', evaluates', reports'⟩
  rcases (carries _ _ evaluates).unique evaluates' with ⟨same, rfl⟩
  rw [reports, reports', Tree.map_step_injective same]

theorem matchEntirely_congr (texts : second.tokens = first.tokens)
    (carries : forall answer log,
      Matching.Evaluates first.grammar first.tokens [] rule (.rule rule) 0 answer log ->
        Matching.Evaluates second.grammar second.tokens [] rule (.rule rule) 0 answer log) :
    (second.matchEntirely rule).1 = (first.matchEntirely rule).1 := by
  rcases first.matchEntirely_evaluates rule with ⟨result, log, evaluates, reports⟩
  rcases second.matchEntirely_evaluates rule with ⟨result', log', evaluates', reports'⟩
  rcases (carries _ _ evaluates).unique evaluates' with ⟨same, rfl⟩
  rw [reports, reports', texts, Tree.map_step_injective same]

/-- What is reported without a memory is reported with one. -/
theorem matchRule_of_unremembered {matcher : Matcher} {outcome : Except GrammarError Outcome}
    (reported : ({ matcher with memoize := false }.matchRule rule start).1 = outcome) :
    (matcher.matchRule rule start).1 = outcome := by
  rw [← reported]
  exact matchRule_congr fun _ _ evaluates => evaluates

theorem matchEntirely_of_unremembered {matcher : Matcher} {outcome : Except GrammarError Outcome}
    (reported : ({ matcher with memoize := false }.matchEntirely rule).1 = outcome) :
    (matcher.matchEntirely rule).1 = outcome := by
  rw [← reported]
  exact matchEntirely_congr rfl fun _ _ evaluates => evaluates

end Matcher

/-! ## A memory changes nothing -/

/-- With and without a memory, and whatever was matched before, a matcher reports the same outcome
of a rule at a place and of a rule for the whole input: the same tree, the same failure with the
same expectations in the same order, or the same error. -/
theorem Matcher.memory_transparent (grammar : Grammar) (tokens : Array Token)
    (memory other : Session) (rule : String) (start : Nat) :
    ((Matcher.mk grammar tokens true memory).matchRule rule start).1 =
        ((Matcher.mk grammar tokens false other).matchRule rule start).1 ∧
      ((Matcher.mk grammar tokens true memory).matchEntirely rule).1 =
        ((Matcher.mk grammar tokens false other).matchEntirely rule).1 := by
  constructor
  · exact Matcher.matchRule_congr fun _ _ evaluates => evaluates
  · exact Matcher.matchEntirely_congr rfl fun _ _ evaluates => evaluates

end Packrat
