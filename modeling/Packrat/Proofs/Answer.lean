import Packrat.Match.Matcher

namespace Packrat

/-!
# Answers and logs

What matching an expression comes to, and what can be seen of it afterwards.  A step covers the
tokens of its nodes.  A log keeps failed tests and calls in their order; the furthest failure of a
session is a summary of the failed tests, and a test that the summary covers does not change it.
-/

namespace Tree

/-- What a part of an expression matched when it called for this tree. -/
def step (tree : Tree) : Step :=
  ⟨tree.stop, [tree]⟩

theorem consumedByAll_append (first rest : List Tree) :
    consumedByAll (first ++ rest) = consumedByAll first + consumedByAll rest := by
  induction first with
  | nil => simp [consumedByAll]
  | cons tree trees inductionHypothesis =>
    simp only [List.cons_append, consumedByAll, inductionHypothesis]
    omega

end Tree

namespace Step

/-- A step and then another one from where the first ended. -/
def followedBy (first rest : Step) : Step :=
  ⟨rest.next, first.nodes ++ rest.nodes⟩

/-- The step of a rule whose expression matched with this one. -/
def under (frame : Frame) (step : Step) : Step :=
  (Tree.ofRule frame.rule frame.position step.nodes).step

/-- The nodes of a step cover exactly the tokens from a place on, and there are as many. -/
structure Covers (size position : Nat) (step : Step) : Prop where
  next_eq : position + Tree.consumedByAll step.nodes = step.next
  next_le : step.next ≤ max position size

namespace Covers

variable {size position : Nat} {first rest step : Step}

theorem le_next (covers : step.Covers size position) : position ≤ step.next :=
  covers.next_eq ▸ Nat.le_add_right _ _

theorem eq_zero (covers : step.Covers size position) (stays : step.next = position) :
    Tree.consumedByAll step.nodes = 0 := by
  have := covers.next_eq
  omega

theorem pos (covers : step.Covers size position) (moves : step.next ≠ position) :
    0 < Tree.consumedByAll step.nodes := by
  have := covers.next_eq
  omega

theorem nothing (size position : Nat) : Step.Covers size position ⟨position, []⟩ :=
  ⟨rfl, Nat.le_max_left _ _⟩

theorem followedBy (covers : first.Covers size position) (after : rest.Covers size first.next) :
    (first.followedBy rest).Covers size position := by
  constructor
  · have sum := Tree.consumedByAll_append first.nodes rest.nodes
    have := covers.next_eq
    have := after.next_eq
    simp only [Step.followedBy]
    omega
  · have := covers.next_le
    have := after.next_le
    simp only [Step.followedBy]
    omega

theorem under_next (covers : step.Covers size position) (rule : String) :
    (step.under ⟨rule, position⟩).next = step.next :=
  covers.next_eq

theorem under_eq (covers : step.Covers size position) (rule : String) :
    step.under ⟨rule, position⟩ =
      ⟨step.next, [.node rule position (step.next - position) step.nodes]⟩ := by
  have sum : Tree.consumedByAll step.nodes = step.next - position := by
    have := covers.next_eq
    omega
  rw [← sum, ← covers.next_eq]
  rfl

theorem under (covers : step.Covers size position) (rule : String) :
    (step.under ⟨rule, position⟩).Covers size position :=
  ⟨rfl, covers.under_next rule ▸ covers.next_le⟩

end Covers

end Step

/-- What matching an expression comes to: an error of the grammar, no match, or a step. -/
abbrev Answer := Except GrammarError (Option Step)

theorem Answer.map_eq_some {answer : Answer} {change : Step -> Step} {step : Step}
    (matched : answer.map (Option.map change) = .ok (some step)) :
    Exists fun before => answer = .ok (some before) ∧ change before = step := by
  rcases answer with error | none | before
  · cases matched
  · cases matched
  · exact ⟨before, rfl, Option.some.inj (Except.ok.inj matched)⟩

theorem Answer.map_eq_ok {answer : Answer} {change : Option Step -> Option Step}
    {result : Option Step} (matched : answer.map change = .ok result) :
    Exists fun before => answer = .ok before ∧ change before = result := by
  rcases answer with error | before
  · cases matched
  · exact ⟨before, rfl, Except.ok.inj matched⟩

theorem Answer.map_eq_error {answer : Answer} {change : Option Step -> Option Step}
    {error : GrammarError} (failed : answer.map change = .error error) :
    answer = .error error := by
  cases answer <;> cases failed
  rfl

/-! ## Logs -/

/-- Something that happens while a rule is matched and can be seen from outside afterwards: a test
that failed, a call that was refused, or a frame that was entered. -/
inductive Event where
  | failed (position : Nat) (rule expected : String)
  | entered (frame : Frame)
  | refused (frame : Frame)

namespace Event

def isRefusal : Event -> Bool
  | refused _ => true
  | _ => false

/-- The furthest failure after one more event. -/
def noted (furthest : Option Failure) : Event -> Option Failure
  | failed position rule expected => some (Failure.extend furthest position rule expected)
  | _ => furthest

/-- A failed test is covered by a furthest failure beyond its place, or at its place with the same
expectation.  Other events leave nothing to cover. -/
def CoveredBy (furthest : Option Failure) : Event -> Prop
  | failed position _ expected =>
    Exists fun failure => furthest = some failure ∧
      (position < failure.position ∨ position = failure.position ∧ expected ∈ failure.expected)
  | _ => True

variable {furthest : Option Failure} {event other : Event}

theorem coveredBy_noted_self : event.CoveredBy (noted furthest event) := by
  cases event with
  | failed position rule expected =>
    refine ⟨_, rfl, ?_⟩
    rcases furthest with - | failure
    · exact Or.inr ⟨rfl, List.mem_singleton_self _⟩
    · simp only [Failure.extend]
      split
      · exact Or.inr ⟨rfl, List.mem_singleton_self _⟩
      · split
        · rename_i fresh
          simp only [Bool.and_eq_true, decide_eq_true_eq] at fresh
          exact Or.inr ⟨fresh.1, List.mem_append_right _ (List.mem_singleton_self _)⟩
        · rename_i notBeyond notFresh
          simp only [Bool.and_eq_true, decide_eq_true_eq, Bool.not_eq_true', not_and,
            Bool.not_eq_false, List.contains_iff_mem] at notFresh
          rcases Nat.lt_or_ge position failure.position with before | after
          · exact Or.inl before
          · have same : position = failure.position := by omega
            exact Or.inr ⟨same, notFresh same⟩
  | entered frame => exact trivial
  | refused frame => exact trivial

/-- The furthest failure only grows: what it covered stays covered. -/
theorem CoveredBy.noted (covered : event.CoveredBy furthest) :
    event.CoveredBy (noted furthest other) := by
  cases event with
  | failed position rule expected =>
    rcases covered with ⟨failure, rfl, place⟩
    cases other with
    | failed position' rule' expected' =>
      refine ⟨_, rfl, ?_⟩
      simp only [Failure.extend]
      split
      · rename_i beyond
        refine Or.inl ?_
        rcases place with before | ⟨same, -⟩ <;> simp only <;> omega
      · split
        · rcases place with before | ⟨same, member⟩
          · exact Or.inl before
          · exact Or.inr ⟨same, List.mem_append_left _ member⟩
        · exact place
    | entered frame => exact ⟨failure, rfl, place⟩
    | refused frame => exact ⟨failure, rfl, place⟩
  | entered frame => exact trivial
  | refused frame => exact trivial

theorem CoveredBy.noted_eq (covered : event.CoveredBy furthest) :
    Event.noted furthest event = furthest := by
  cases event with
  | failed position rule expected =>
    rcases covered with ⟨failure, rfl, place⟩
    simp only [Event.noted, Failure.extend]
    rcases place with before | ⟨same, member⟩
    · rw [if_neg (Nat.lt_asymm before), if_neg]
      simp [Nat.ne_of_lt before]
    · rw [if_neg (by omega), if_neg]
      simp [member]
  | entered frame => rfl
  | refused frame => rfl

end Event

/-- What happened, in order.  A result that is remembered stands for a log that is not repeated,
which is why logs belong to evaluations and not to sessions. -/
abbrev Log := List Event

namespace Log

def refusals (log : Log) : Nat :=
  log.countP Event.isRefusal

/-- The furthest failure after a log, from an earlier one on. -/
def furthest (before : Option Failure) (log : Log) : Option Failure :=
  log.foldl Event.noted before

variable {before : Option Failure} {log first rest : Log} {event : Event}

theorem refusals_append : refusals (first ++ rest) = refusals first + refusals rest :=
  List.countP_append

theorem furthest_append : furthest before (first ++ rest) = furthest (furthest before first) rest :=
  List.foldl_append

theorem refusals_append_eq_zero_iff :
    refusals (first ++ rest) = 0 <-> first.refusals = 0 ∧ rest.refusals = 0 := by
  rw [refusals_append, Nat.add_eq_zero_iff]

theorem entered_of_ne {frame inner : Frame} (entered : .entered inner ∈ .entered frame :: log)
    (different : inner ≠ frame) : .entered inner ∈ log := by
  rcases List.mem_cons.mp entered with same | entered
  · cases same
    exact absurd rfl different
  · exact entered

/-- The parts of a log without a refused call are such logs, and enter nothing that the whole does
not enter. -/
theorem unrefused_append {other : List Frame} (unrefused : refusals (first ++ rest) = 0)
    (apart : forall frame, .entered frame ∈ first ++ rest -> frame ∉ other) :
    (first.refusals = 0 ∧ forall frame, .entered frame ∈ first -> frame ∉ other) ∧
      rest.refusals = 0 ∧ forall frame, .entered frame ∈ rest -> frame ∉ other := by
  rcases refusals_append_eq_zero_iff.mp unrefused with ⟨none, none'⟩
  exact ⟨⟨none, fun frame entered => apart frame (List.mem_append_left _ entered)⟩,
    none', fun frame entered => apart frame (List.mem_append_right _ entered)⟩

theorem coveredBy_of_coveredBy (covered : event.CoveredBy before) (log : Log) :
    event.CoveredBy (log.furthest before) := by
  induction log generalizing before with
  | nil => exact covered
  | cons head tail inductionHypothesis => exact inductionHypothesis covered.noted

/-- A log is covered by its own furthest failure. -/
theorem coveredBy_furthest (member : event ∈ log) : event.CoveredBy (log.furthest before) := by
  induction log generalizing before with
  | nil => cases member
  | cons head tail inductionHypothesis =>
    rcases List.mem_cons.mp member with rfl | later
    · exact coveredBy_of_coveredBy Event.coveredBy_noted_self tail
    · exact inductionHypothesis later

theorem furthest_eq_of_covered (covered : forall event, event ∈ log -> event.CoveredBy before) :
    log.furthest before = before := by
  induction log with
  | nil => rfl
  | cons head tail inductionHypothesis =>
    have same := (covered head List.mem_cons_self).noted_eq
    rw [furthest, List.foldl_cons, same]
    exact inductionHypothesis fun event member => covered event (List.mem_cons_of_mem _ member)

end Log

namespace TokenTest

/-- Whether there is a token at a place and it passes. -/
def passesAt (tokens : Array Token) (question : TokenTest) (position : Nat) : Bool :=
  tokens[position]?.any question.passes

/-- The step of a test at a place, if the test passes. -/
def step? (tokens : Array Token) (question : TokenTest) (position : Nat) : Option Step :=
  if question.passesAt tokens position then some ⟨position + 1, [.leaf position]⟩ else none

/-- The log of a test at a place: only a failure leaves a trace. -/
def log (tokens : Array Token) (rule : String) (question : TokenTest) (position : Nat) :
    Log :=
  if question.passesAt tokens position then [] else [.failed position rule question.describe]

theorem lt_size_of_passesAt {tokens : Array Token} {question : TokenTest} {position : Nat}
    (passed : question.passesAt tokens position = true) : position < tokens.size := by
  rcases Nat.lt_or_ge position tokens.size with inside | beyond
  · exact inside
  · rw [passesAt, Array.getElem?_eq_none beyond] at passed
    cases passed

theorem step?_covers {tokens : Array Token} {question : TokenTest} {position : Nat} {step : Step}
    (matched : question.step? tokens position = some step) :
    step.Covers tokens.size position := by
  unfold step? at matched
  split at matched
  · rename_i passed
    have inside := lt_size_of_passesAt passed
    cases matched
    exact ⟨rfl, Nat.le_trans inside (Nat.le_max_right _ _)⟩
  · cases matched

theorem next_of_step? {tokens : Array Token} {question : TokenTest} {position : Nat} {step : Step}
    (matched : question.step? tokens position = some step) : step.next = position + 1 := by
  unfold step? at matched
  split at matched <;> cases matched
  rfl

theorem failed_of_mem_log {tokens : Array Token} {rule : String} {question : TokenTest}
    {position : Nat} {event : Event} (member : event ∈ question.log tokens rule position) :
    event = .failed position rule question.describe := by
  unfold log at member
  split at member
  · cases member
  · exact List.mem_singleton.mp member

theorem refusals_log {tokens : Array Token} {rule : String} {question : TokenTest}
    {position : Nat} : (question.log tokens rule position).refusals = 0 := by
  unfold log
  split <;> rfl

end TokenTest

end Packrat
