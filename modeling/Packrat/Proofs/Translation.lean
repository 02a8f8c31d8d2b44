import Packrat.Proofs.Trying

namespace Packrat

/-!
# Matching elsewhere

Where the same tokens stand elsewhere, they are matched alike, and the trees only move with them.
What matters of a token are the tests that are tried on it.  So it is enough that these come out
alike in two texts, from a place in one of them and from a place in the other on.
-/

/-! ## Moving to another place -/

/-- The place that is as far behind a target as a place is behind its origin. -/
def moved (origin target place : Nat) : Nat :=
  place - origin + target

variable {origin target place other : Nat}

theorem moved_add (target : Nat) (behind : origin ≤ place) (count : Nat) :
    moved origin target (place + count) = moved origin target place + count := by
  unfold moved
  omega

theorem moved_injective (behind : origin ≤ place) (behindOther : origin ≤ other)
    (same : moved origin target place = moved origin target other) : place = other := by
  unfold moved at same
  omega

namespace Tree

mutual

/-- The tree over tokens elsewhere. -/
def moved (origin target : Nat) : Tree -> Tree
  | leaf index => leaf (Packrat.moved origin target index)
  | node rule start consumed children =>
    node rule (Packrat.moved origin target start) consumed (movedAll origin target children)

def movedAll (origin target : Nat) : List Tree -> List Tree
  | [] => []
  | tree :: trees => moved origin target tree :: movedAll origin target trees

end

theorem movedAll_append (first rest : List Tree) :
    movedAll origin target (first ++ rest) =
      movedAll origin target first ++ movedAll origin target rest := by
  induction first with
  | nil => rfl
  | cons tree trees inductionHypothesis =>
    rw [List.cons_append, movedAll, inductionHypothesis]
    rfl

theorem consumed_moved (tree : Tree) : (tree.moved origin target).consumed = tree.consumed := by
  cases tree <;> rfl

theorem consumedByAll_movedAll (trees : List Tree) :
    consumedByAll (movedAll origin target trees) = consumedByAll trees := by
  induction trees with
  | nil => rfl
  | cons tree trees inductionHypothesis =>
    rw [movedAll, consumedByAll, consumedByAll, consumed_moved, inductionHypothesis]

end Tree

def Frame.moved (origin target : Nat) (frame : Frame) : Frame :=
  ⟨frame.rule, Packrat.moved origin target frame.position⟩

def Step.moved (origin target : Nat) (step : Step) : Step :=
  ⟨Packrat.moved origin target step.next, Tree.movedAll origin target step.nodes⟩

def Event.moved (origin target : Nat) : Event -> Event
  | failed position rule expected => failed (Packrat.moved origin target position) rule expected
  | entered frame => entered (frame.moved origin target)
  | refused frame => refused (frame.moved origin target)

def Answer.moved (origin target : Nat) (answer : Answer) : Answer :=
  answer.map (Option.map (Step.moved origin target))

def Log.moved (origin target : Nat) (log : Log) : Log :=
  log.map (Event.moved origin target)

theorem Step.moved_followedBy (first rest : Step) :
    (first.followedBy rest).moved origin target =
      (first.moved origin target).followedBy (rest.moved origin target) := by
  rw [followedBy, moved, Tree.movedAll_append]
  rfl

theorem Step.moved_under {frame : Frame} (behind : origin ≤ frame.position) (step : Step) :
    (step.under frame).moved origin target =
      (step.moved origin target).under (frame.moved origin target) := by
  have stop := moved_add target behind (Tree.consumedByAll step.nodes)
  simp only [under, Tree.step, Tree.stop, Tree.ofRule, Tree.start, Tree.consumed, moved,
    Frame.moved, Tree.movedAll, Tree.moved, Tree.consumedByAll_movedAll, stop]

namespace Answer

variable {answer : Answer}

theorem moved_followedBy (first : Step) (answer : Answer) :
    Answer.moved origin target (answer.map (Option.map first.followedBy)) =
      (answer.moved origin target).map (Option.map (first.moved origin target).followedBy) := by
  rcases answer with error | none | step
  · rfl
  · rfl
  · rw [Except.map, Option.map_some, moved, Except.map, Option.map_some, Step.moved_followedBy]
    rfl

theorem moved_under {frame : Frame} (behind : origin ≤ frame.position) (answer : Answer) :
    Answer.moved origin target (answer.map (Option.map (Step.under frame))) =
      (answer.moved origin target).map (Option.map (Step.under (frame.moved origin target))) := by
  rcases answer with error | none | step
  · rfl
  · rfl
  · rw [Except.map, Option.map_some, moved, Except.map, Option.map_some, Step.moved_under behind]
    rfl

/-- An answer elsewhere is a step exactly when the answer is one. -/
theorem moved_eq_some {step : Step} (matched : answer.moved origin target = .ok (some step)) :
    Exists fun before => answer = .ok (some before) ∧ before.moved origin target = step :=
  map_eq_some matched

theorem moved_ne_none (some : answer ≠ .ok none) : answer.moved origin target ≠ .ok none := by
  rcases answer with error | none | step
  · exact nofun
  · exact absurd rfl some
  · exact nofun

theorem moved_stays {position : Nat}
    (stays : forall first, answer = .ok (some first) -> first.next = position) :
    forall first, answer.moved origin target = .ok (some first) ->
      first.next = Packrat.moved origin target position := by
  intro first matched
  rcases moved_eq_some matched with ⟨before, same, rfl⟩
  rw [← stays before same]
  rfl

end Answer

namespace TokenTest

variable {tokens others : Array Token} {question : TokenTest} {position : Nat} {rule : String}

theorem step?_moved (behind : origin ≤ position)
    (same : question.passesAt others (moved origin target position) =
      question.passesAt tokens position) :
    (question.step? tokens position).map (Step.moved origin target) =
      question.step? others (moved origin target position) := by
  rw [step?, step?, same]
  split
  · rw [Option.map_some, Step.moved, moved_add target behind]
    rfl
  · rfl

theorem log_moved
    (same : question.passesAt others (moved origin target position) =
      question.passesAt tokens position) :
    Log.moved origin target (question.log tokens rule position) =
      question.log others rule (moved origin target position) := by
  rw [log, log, same]
  split <;> rfl

end TokenTest

theorem Log.moved_append (first rest : Log) :
    Log.moved origin target (first ++ rest) =
      first.moved origin target ++ rest.moved origin target :=
  List.map_append

theorem Log.refusals_moved (log : Log) : (log.moved origin target).refusals = log.refusals := by
  rw [refusals, Log.moved, List.countP_map, refusals]
  congr 1
  funext event
  cases event <;> rfl

theorem Log.entered_of_moved {log : Log} {frame : Frame}
    (entered : .entered frame ∈ log.moved origin target) :
    Exists fun before => .entered before ∈ log ∧ before.moved origin target = frame := by
  rcases List.mem_map.mp entered with ⟨event, listed, same⟩
  cases event with
  | entered before => exact ⟨before, listed, Event.entered.inj same⟩
  | failed => cases same
  | refused => cases same

namespace Matching

variable {grammar : Grammar} {tokens others : Array Token} {active : List Frame} {rule : String}
  {expression : Expression} {position : Nat} {answer : Answer} {log : Log}

/-- Tokens that answer alike what is tried are matched alike elsewhere. -/
theorem Evaluates.moved
    (evaluates : Evaluates grammar tokens active rule expression position answer log)
    (behind : origin ≤ position) (outer : forall frame, frame ∈ active -> origin ≤ frame.position)
    (agree : forall question place,
      Tries grammar tokens active rule expression position question place ->
        question.passesAt others (Packrat.moved origin target place) =
          question.passesAt tokens place) :
    Evaluates grammar others (active.map (Frame.moved origin target)) rule expression
      (Packrat.moved origin target position) (answer.moved origin target)
      (log.moved origin target) := by
  induction evaluates with
  | literal =>
    have same := agree _ _ .literal
    rw [TokenTest.log_moved same, Answer.moved, Except.map, TokenTest.step?_moved behind same]
    exact .literal
  | mock =>
    have same := agree _ _ .mock
    rw [TokenTest.log_moved same, Answer.moved, Except.map, TokenTest.step?_moved behind same]
    exact .mock
  | undefined missing => exact .undefined missing
  | refused found member => exact .refused found (List.mem_map_of_mem member)
  | @called active rule name position _ _ _ found absent _ inductionHypothesis =>
    simp only [tries_rule_iff found absent] at agree
    have outer' : forall frame, frame ∈ ⟨name, position⟩ :: active -> origin ≤ frame.position := by
      intro frame member
      rcases List.mem_cons.mp member with rfl | member
      · exact behind
      · exact outer frame member
    rw [Answer.moved_under behind]
    refine .called found ?_ (inductionHypothesis behind outer' agree)
    intro member
    rcases List.mem_map.mp member with ⟨frame, listed, same⟩
    have place := moved_injective (outer frame listed) behind (congrArg Frame.position same)
    have named : frame.rule = name := congrArg Frame.rule same
    rw [← named, ← place] at absent
    exact absent listed
  | sequenceNil => exact .sequenceNil
  | sequenceStops item stops inductionHypothesis =>
    simp only [item.tries_sequence_stop_iff stops] at agree
    refine .sequenceStops (inductionHypothesis behind outer agree) fun first matched => ?_
    rcases Answer.moved_eq_some matched with ⟨before, same, -⟩
    exact stops before same
  | sequenceGoesOn item _ itemHypothesis restHypothesis =>
    simp only [item.tries_sequence_iff, or_imp, forall_and] at agree
    have forward := Nat.le_trans behind (item.covers _ rfl).le_next
    rw [Answer.moved_followedBy, Log.moved_append]
    exact .sequenceGoesOn (itemHypothesis behind outer agree.1)
      (restHypothesis forward outer agree.2)
  | choiceNil => exact .choiceNil
  | choiceStops first stops inductionHypothesis =>
    simp only [first.tries_choice_stop_iff stops] at agree
    exact .choiceStops (inductionHypothesis behind outer agree) (Answer.moved_ne_none stops)
  | choiceGoesOn first _ firstHypothesis restHypothesis =>
    simp only [first.tries_choice_iff, or_imp, forall_and] at agree
    rw [Log.moved_append]
    exact .choiceGoesOn (firstHypothesis behind outer agree.1)
      (restHypothesis behind outer agree.2)
  | @optional _ _ _ _ answer _ _ inductionHypothesis =>
    simp only [tries_optional_iff] at agree
    have body := Evaluates.optional (inductionHypothesis behind outer agree)
    rcases answer with error | none | found <;> exact body
  | @zeroOrMoreStops _ _ _ _ answer _ body stays inductionHypothesis =>
    simp only [body.tries_zeroOrMore_stop_iff stays] at agree
    have round := Evaluates.zeroOrMoreStops (inductionHypothesis behind outer agree)
      (Answer.moved_stays stays)
    rcases answer with error | found <;> exact round
  | zeroOrMoreGoesOn body moves _ bodyHypothesis restHypothesis =>
    simp only [body.tries_zeroOrMore_iff moves, or_imp, forall_and] at agree
    have forward := (body.covers _ rfl).le_next
    rw [Answer.moved_followedBy, Log.moved_append]
    refine .zeroOrMoreGoesOn (bodyHypothesis behind outer agree.1) (fun stays => moves ?_)
      (restHypothesis (Nat.le_trans behind forward) outer agree.2)
    exact moved_injective (Nat.le_trans behind forward) behind stays
  | @oneOrMoreStops _ _ _ _ answer _ body stays inductionHypothesis =>
    simp only [body.tries_oneOrMore_stop_iff stays] at agree
    have round := Evaluates.oneOrMoreStops (inductionHypothesis behind outer agree)
      (Answer.moved_stays stays)
    rcases answer with error | none | found <;> exact round
  | oneOrMoreGoesOn body moves _ bodyHypothesis restHypothesis =>
    simp only [body.tries_oneOrMore_iff moves, or_imp, forall_and] at agree
    have forward := (body.covers _ rfl).le_next
    rw [Answer.moved_followedBy, Log.moved_append]
    refine .oneOrMoreGoesOn (bodyHypothesis behind outer agree.1) (fun stays => moves ?_)
      (restHypothesis (Nat.le_trans behind forward) outer agree.2)
    exact moved_injective (Nat.le_trans behind forward) behind stays

end Matching
end Packrat
