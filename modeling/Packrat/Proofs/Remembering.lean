import Packrat.Proofs.Outcome

namespace Packrat

/-!
# Every moment of a run

A match goes through many sessions, and what it remembers in one of them may be given again in any
later one.  The sessions that a run meets are described part by part, as the run goes through the
expression: the one in which a part begins, the ones inside the part, and the one in which it ends.

A run that begins in a sound session meets sound sessions only, whatever calls are active then.  So
at every moment of a match a remembered result is what its rule comes to alone, without a memory
and outside of all other calls, and the failed tests behind it are already covered.
-/

namespace Matching

/-- The sessions that a run of an expression of a rule meets from a session on.  A session changes
only when a test fails, when a call is refused and when the result of a call is remembered; each of
these is the end of a part. -/
inductive Meets (grammar : Grammar) (tokens : Array Token) (memoize : Bool) :
    List Frame -> String -> Expression -> Nat -> Session -> Session -> Prop
  | before {active rule expression position session} :
      Meets grammar tokens memoize active rule expression position session session
  | after {active rule expression position session answer after trace} :
      Runs grammar tokens memoize active rule expression position session answer after trace ->
      Meets grammar tokens memoize active rule expression position session after
  | called {active rule name position target session met} :
      grammar.find? name = some target ->
      (memoize = true -> session.recalled? ⟨name, position⟩ = none) ->
      ⟨name, position⟩ ∉ active ->
      Meets grammar tokens memoize (⟨name, position⟩ :: active) name target.effective position
        session met ->
      Meets grammar tokens memoize active rule (.rule name) position session met
  | item {active rule item items position session met} :
      Meets grammar tokens memoize active rule item position session met ->
      Meets grammar tokens memoize active rule (.sequence (item :: items)) position session met
  | laterItem {active rule item items position session first middle trace met} :
      Runs grammar tokens memoize active rule item position session (.ok (some first)) middle
        trace ->
      Meets grammar tokens memoize active rule (.sequence items) first.next middle met ->
      Meets grammar tokens memoize active rule (.sequence (item :: items)) position session met
  | alternative {active rule alternative alternatives position session met} :
      Meets grammar tokens memoize active rule alternative position session met ->
      Meets grammar tokens memoize active rule (.choice (alternative :: alternatives)) position
        session met
  | laterAlternative {active rule alternative alternatives position session middle trace met} :
      Runs grammar tokens memoize active rule alternative position session (.ok none) middle
        trace ->
      Meets grammar tokens memoize active rule (.choice alternatives) position middle met ->
      Meets grammar tokens memoize active rule (.choice (alternative :: alternatives)) position
        session met
  | optional {active rule body position session met} :
      Meets grammar tokens memoize active rule body position session met ->
      Meets grammar tokens memoize active rule (.optional body) position session met
  | zeroOrMore {active rule body position session met} :
      Meets grammar tokens memoize active rule body position session met ->
      Meets grammar tokens memoize active rule (.zeroOrMore body) position session met
  | zeroOrMoreLater {active rule body position session first middle trace met} :
      Runs grammar tokens memoize active rule body position session (.ok (some first)) middle
        trace ->
      first.next ≠ position ->
      Meets grammar tokens memoize active rule (.zeroOrMore body) first.next middle met ->
      Meets grammar tokens memoize active rule (.zeroOrMore body) position session met
  | oneOrMore {active rule body position session met} :
      Meets grammar tokens memoize active rule body position session met ->
      Meets grammar tokens memoize active rule (.oneOrMore body) position session met
  | oneOrMoreLater {active rule body position session first middle trace met} :
      Runs grammar tokens memoize active rule body position session (.ok (some first)) middle
        trace ->
      first.next ≠ position ->
      Meets grammar tokens memoize active rule (.zeroOrMore body) first.next middle met ->
      Meets grammar tokens memoize active rule (.oneOrMore body) position session met

variable {grammar : Grammar} {tokens : Array Token} {memoize : Bool} {active : List Frame}
  {rule : String} {expression : Expression} {position : Nat} {session met : Session}

/-- A run that begins in a sound session meets sound sessions only, each of them with the frames
that are active then. -/
theorem Meets.sound
    (meets : Meets grammar tokens memoize active rule expression position session met)
    (sound : session.Sound grammar tokens memoize active) :
    Exists fun frames => met.Sound grammar tokens memoize frames := by
  induction meets with
  | before => exact ⟨_, sound⟩
  | after runs =>
    rcases runs.evaluates sound with ⟨-, -, soundAfter, -⟩
    exact ⟨_, soundAfter⟩
  | called _ forgotten _ _ inductionHypothesis =>
    exact inductionHypothesis (sound.activate forgotten)
  | item _ inductionHypothesis | alternative _ inductionHypothesis
  | optional _ inductionHypothesis | zeroOrMore _ inductionHypothesis
  | oneOrMore _ inductionHypothesis => exact inductionHypothesis sound
  | laterItem first _ inductionHypothesis | laterAlternative first _ inductionHypothesis
  | zeroOrMoreLater first _ _ inductionHypothesis
  | oneOrMoreLater first _ _ inductionHypothesis =>
    rcases first.evaluates sound with ⟨-, -, soundMiddle, -⟩
    exact inductionHypothesis soundMiddle

end Matching

namespace Session

/-- A result of a frame does not depend on where it is given again: alone and without a memory the
rule comes to the same there, no call is refused meanwhile, and the tests that fail meanwhile are
covered by the furthest failure of the session. -/
structure IsContextFree (grammar : Grammar) (tokens : Array Token) (session : Session)
    (frame : Frame) (result : Option Tree) : Prop where
  alone : Exists fun after =>
    Matching.Ends (Matching.start grammar tokens false frame.rule frame.position) {} (.ok result)
      after ∧ after.refused = 0
  covered : Exists fun log =>
    Matching.Evaluates grammar tokens [] frame.rule (.rule frame.rule) frame.position
      (.ok (result.map Tree.step)) log ∧ log.refusals = 0 ∧
        forall event, event ∈ log -> event.CoveredBy session.furthest

variable {grammar : Grammar} {tokens : Array Token} {session : Session} {frame : Frame}
  {result : Option Tree}

/-- An evaluation without active frames is what a match without a memory comes to. -/
theorem Backs.isContextFree {log : Log}
    (backs : session.Backs grammar tokens frame result log) :
    session.IsContextFree grammar tokens frame result := by
  refine ⟨?_, log, backs.evaluates, backs.unrefused, backs.covered⟩
  rcases Matching.start_runs grammar tokens false frame.rule frame.rule frame.position with
    ⟨found, after, trace, ends, runs⟩
  rcases runs.evaluates sound_empty with ⟨log', evaluates, -, follows⟩
  rcases evaluates.unique backs.evaluates with ⟨same, rfl⟩
  have answers : found = .ok result := Tree.map_step_injective same
  rw [answers] at ends
  refine ⟨after, ends, ?_⟩
  rw [follows.refused_eq, backs.unrefused]

end Session

/-- A match with a memory is a run from an empty session, and at every moment of the run each
remembered result is free of its context. -/
theorem Matcher.recalled_isContextFree (grammar : Grammar) (tokens : Array Token)
    (memory : Session) (rule : String) (start : Nat) :
    Exists fun result => Exists fun after => Exists fun trace => Exists fun kept =>
      Matching.Runs grammar tokens true [] rule (.rule rule) start {}
          (result.map (Option.map Tree.step)) after trace ∧
        (Matcher.mk grammar tokens true memory).matchRule rule start =
          (report rule start after.furthest result, ⟨grammar, tokens, true, kept⟩) ∧
        (kept = after ∨ kept = memory ∧ Exists fun error => result = .error error) ∧
        forall met, Matching.Meets grammar tokens true [] rule (.rule rule) start {} met ->
          forall frame remembered, met.recalled? frame = some remembered ->
            met.IsContextFree grammar tokens frame remembered := by
  rcases (Matcher.mk grammar tokens true memory).matchRule_runs rule start with
    ⟨result, after, trace, kept, runs, reports, keeps⟩
  refine ⟨result, after, trace, kept, runs, reports, keeps, ?_⟩
  intro met meets frame remembered found
  rcases meets.sound Session.sound_empty with ⟨frames, sound⟩
  rcases sound.backed frame remembered found with ⟨log, backs⟩
  exact backs.isContextFree

/-- Left recursion is refused inside "a", so only "target" is remembered when its first call has
ended; "a" is still active then, and "x" came to what it did because "a" was active. -/
theorem Matcher.recalled_isContextFree_left_recursive :
    let grammar : Grammar := ⟨
      [⟨"top", .choice [.sequence [.rule "a", .op ","], .rule "x"], false⟩,
        ⟨"a", .choice [.sequence [.rule "x", .op "?"], .rule "target"], false⟩,
        ⟨"x", .choice [.sequence [.rule "a", .op ";"], .word "pass"], false⟩,
        ⟨"target", .any .identifier, false⟩], 0⟩
    let tokens : Array Token :=
      #[⟨.identifier, "n", default, default⟩, ⟨.operator, ";", default, default⟩]
    Exists fun met =>
      Matching.Meets grammar tokens true [] "top" (.rule "top") 0 {} met ∧
        met.recalled? ⟨"a", 0⟩ = none ∧ met.recalled? ⟨"x", 0⟩ = none ∧
        met.recalled? ⟨"target", 0⟩ = some (some (.node "target" 0 1 [.leaf 0])) ∧
        met.IsContextFree grammar tokens ⟨"target", 0⟩
          (some (.node "target" 0 1 [.leaf 0])) := by
  intro grammar tokens
  let active : List Frame := [⟨"a", 0⟩, ⟨"top", 0⟩]
  let missed : Session := Session.refuse {} |>.tested tokens "x" (.literal .keyword (some "pass")) 0
  let kept : Session := missed.remember ⟨"target", 0⟩ (some (.node "target" 0 1 [.leaf 0]))
  have unknown : forall frame, missed.recalled? frame = none := fun frame =>
    (congrFun (Session.recalled?_tested _) frame).trans (Session.recalled?_empty frame)
  -- the call of "a" inside "x" is refused, and the word is missing
  have refused : Matching.Runs grammar tokens true (⟨"x", 0⟩ :: active) "x" (.rule "a") 0 {}
      (.ok none) (Session.refuse {}) (.returned ⟨"a", 0⟩) :=
    .refused rfl (fun _ => Session.recalled?_empty _) (by decide)
  have missing : Matching.Runs grammar tokens true (⟨"x", 0⟩ :: active) "x" (.word "pass") 0
      (Session.refuse {}) (.ok none) missed (.test 0) :=
    .literal
  have definesX : grammar.find? "x" = some _ := rfl
  have fails : Matching.Runs grammar tokens true active "a" (.rule "x") 0 {} (.ok none) missed _ :=
    .called definesX (fun _ => Session.recalled?_empty _) (by decide)
      (.choiceGoesOn (.sequenceStops refused nofun) (.choiceGoesOn missing .choiceNil))
  have definesTarget : grammar.find? "target" = some _ := rfl
  have succeeds : Matching.Runs grammar tokens true active "a" (.rule "target") 0 missed
      (.ok (some ⟨1, [.node "target" 0 1 [.leaf 0]]⟩)) kept _ :=
    .called definesTarget (fun _ => unknown _) (by decide) .literal
  have meetsInside : Matching.Meets grammar tokens true [⟨"top", 0⟩] "top" (.rule "a") 0 {} kept :=
    .called rfl (fun _ => Session.recalled?_empty _) (by decide)
      (.laterAlternative (.sequenceStops fails nofun) (.alternative (.after succeeds)))
  have meets : Matching.Meets grammar tokens true [] "top" (.rule "top") 0 {} kept :=
    .called rfl (fun _ => Session.recalled?_empty _) (by decide)
      (.alternative (.item meetsInside))
  have recalls : forall frame, kept.recalled? frame =
      if ⟨"target", 0⟩ = frame then some (some (.node "target" 0 1 [.leaf 0])) else none := by
    intro frame
    rw [Session.recalled?_remember, unknown]
  have found : kept.recalled? ⟨"target", 0⟩ = some (some (.node "target" 0 1 [.leaf 0])) :=
    recalls ⟨"target", 0⟩
  rcases recalled_isContextFree grammar tokens {} "top" 0 with ⟨-, -, -, -, -, -, -, free⟩
  exact ⟨kept, meets, recalls ⟨"a", 0⟩, recalls ⟨"x", 0⟩, found, free kept meets _ _ found⟩

end Packrat
