import Packrat.Proofs.Answer

namespace Packrat

/-!
# Runs

What the matching of an expression does to a session, as a relation.  There is no depth and no
bound on the rounds of a repetition here: a call is turned away only when its result is remembered
or its frame is active, and a repetition goes on whenever its body ended in another place.  So a
run that exists is one that comes to an end by itself.

A run leaves a trace, the tree of the calls that it made.
-/

/-- The calls of a run inside each other.  A call that was refused, remembered or undefined
`returned` at once; every other call was entered.  A round of a repetition carries the place of its
body, what happened in it, and what happened in the rounds after it. -/
inductive Trace where
  | nothing
  | test (position : Nat)
  | returned (frame : Frame)
  | entered (frame : Frame) (inside : Trace)
  | round (position : Nat) (inside further : Trace)
  | both (first rest : Trace)

namespace Trace

/-- The chains of calls inside each other, from the outermost one on. -/
def chains : Trace -> List (List Frame)
  | nothing => []
  | test _ => []
  | returned frame => [[frame]]
  | entered frame inside => [frame] :: inside.chains.map (frame :: ·)
  | round _ inside further => inside.chains ++ further.chains
  | both first rest => first.chains ++ rest.chains

/-- The chains of frames that were being matched inside each other. -/
def nests : Trace -> List (List Frame)
  | nothing => []
  | test _ => []
  | returned _ => []
  | entered frame inside => [frame] :: inside.nests.map (frame :: ·)
  | round _ inside further => inside.nests ++ further.nests
  | both first rest => first.nests ++ rest.nests

/-- The places of the rounds of a repetition. -/
def rounds : Trace -> List Nat
  | round position _ further => position :: further.rounds
  | _ => []

/-- The places of the rounds of every repetition of a run, counted from each of its rounds on. -/
def loops : Trace -> List (List Nat)
  | nothing => []
  | test _ => []
  | returned _ => []
  | entered _ inside => inside.loops
  | round position inside further =>
    (position :: further.rounds) :: inside.loops ++ further.loops
  | both first rest => first.loops ++ rest.loops

end Trace

namespace Session

/-- What is remembered for a frame. -/
def recalled? (session : Session) (frame : Frame) : Option (Option Tree) :=
  session.memo[frame]?

theorem recalled?_empty (frame : Frame) : recalled? {} frame = none :=
  Std.HashMap.getElem?_empty

theorem recalled?_remember (session : Session) (frame other : Frame) (result : Option Tree) :
    (session.remember frame result).recalled? other =
      if frame = other then some result else session.recalled? other := by
  simp only [recalled?, remember, Std.HashMap.getElem?_insert, beq_iff_eq]

theorem recalled?_remember_ne_none {session : Session} {frame other : Frame}
    {result : Option Tree} (known : other ≠ frame -> session.recalled? other ≠ none) :
    (session.remember frame result).recalled? other ≠ none := by
  rw [recalled?_remember]
  split
  · exact Option.some_ne_none _
  · rename_i different
    exact known (Ne.symm different)

/-- The session after a test at a place. -/
def tested (tokens : Array Token) (rule : String) (question : TokenTest) (position : Nat)
    (session : Session) : Session :=
  if question.passesAt tokens position then session
  else session.note position rule question.describe

/-- The session after the expression of a rule was matched for a frame: what came of it is
remembered when no call was refused since `before`.  An error is not remembered. -/
def settled (memoize : Bool) (before : Session) (frame : Frame) : Answer -> Session -> Session
  | .ok step, after =>
    if memoize && after.refused == before.refused then
      after.remember frame (step.map fun step => Tree.ofRule frame.rule frame.position step.nodes)
    else after
  | .error _, after => after

end Session

namespace Matching

/-- A run of an expression of a rule at a place while some frames are active: from a session to an
answer, a session and a trace. -/
inductive Runs (grammar : Grammar) (tokens : Array Token) (memoize : Bool) :
    List Frame -> String -> Expression -> Nat -> Session -> Answer -> Session -> Trace -> Prop
  | literal {active rule kind text position session} :
      Runs grammar tokens memoize active rule (.literal kind text) position session
        (.ok ((TokenTest.literal kind text).step? tokens position))
        (session.tested tokens rule (.literal kind text) position) (.test position)
  | mock {active rule position session} :
      Runs grammar tokens memoize active rule .mock position session
        (.ok ((TokenTest.spelling rule).step? tokens position))
        (session.tested tokens rule (.spelling rule) position) (.test position)
  | undefined {active rule name position session} :
      grammar.find? name = none ->
      Runs grammar tokens memoize active rule (.rule name) position session
        (.error (.undefinedRule name none)) session (.returned ⟨name, position⟩)
  | recalled {active rule name position session target result} :
      grammar.find? name = some target -> memoize = true ->
      session.recalled? ⟨name, position⟩ = some result ->
      Runs grammar tokens memoize active rule (.rule name) position session
        (.ok (result.map Tree.step)) session (.returned ⟨name, position⟩)
  | refused {active rule name position session target} :
      grammar.find? name = some target ->
      (memoize = true -> session.recalled? ⟨name, position⟩ = none) ->
      ⟨name, position⟩ ∈ active ->
      Runs grammar tokens memoize active rule (.rule name) position session
        (.ok none) session.refuse (.returned ⟨name, position⟩)
  | called {active rule name position session target answer after trace} :
      grammar.find? name = some target ->
      (memoize = true -> session.recalled? ⟨name, position⟩ = none) ->
      ⟨name, position⟩ ∉ active ->
      Runs grammar tokens memoize (⟨name, position⟩ :: active) name target.effective position
        session answer after trace ->
      Runs grammar tokens memoize active rule (.rule name) position session
        (answer.map (Option.map (Step.under ⟨name, position⟩)))
        (Session.settled memoize session ⟨name, position⟩ answer after)
        (.entered ⟨name, position⟩ trace)
  | sequenceNil {active rule position session} :
      Runs grammar tokens memoize active rule (.sequence []) position session
        (.ok (some ⟨position, []⟩)) session .nothing
  | sequenceStops {active rule item items position session answer after trace} :
      Runs grammar tokens memoize active rule item position session answer after trace ->
      (forall first, answer ≠ .ok (some first)) ->
      Runs grammar tokens memoize active rule (.sequence (item :: items)) position session
        answer after trace
  | sequenceGoesOn {active rule item items position session first middle trace answer after
      traceAfter} :
      Runs grammar tokens memoize active rule item position session (.ok (some first)) middle
        trace ->
      Runs grammar tokens memoize active rule (.sequence items) first.next middle answer after
        traceAfter ->
      Runs grammar tokens memoize active rule (.sequence (item :: items)) position session
        (answer.map (Option.map first.followedBy)) after (.both trace traceAfter)
  | choiceNil {active rule position session} :
      Runs grammar tokens memoize active rule (.choice []) position session
        (.ok none) session .nothing
  | choiceStops {active rule alternative alternatives position session answer after trace} :
      Runs grammar tokens memoize active rule alternative position session answer after trace ->
      answer ≠ .ok none ->
      Runs grammar tokens memoize active rule (.choice (alternative :: alternatives)) position
        session answer after trace
  | choiceGoesOn {active rule alternative alternatives position session middle trace answer after
      traceAfter} :
      Runs grammar tokens memoize active rule alternative position session (.ok none) middle
        trace ->
      Runs grammar tokens memoize active rule (.choice alternatives) position middle answer after
        traceAfter ->
      Runs grammar tokens memoize active rule (.choice (alternative :: alternatives)) position
        session answer after (.both trace traceAfter)
  | optional {active rule body position session answer after trace} :
      Runs grammar tokens memoize active rule body position session answer after trace ->
      Runs grammar tokens memoize active rule (.optional body) position session
        (answer.map fun step => some (step.getD ⟨position, []⟩)) after trace
  | zeroOrMoreStops {active rule body position session answer after trace} :
      Runs grammar tokens memoize active rule body position session answer after trace ->
      (forall first, answer = .ok (some first) -> first.next = position) ->
      Runs grammar tokens memoize active rule (.zeroOrMore body) position session
        (answer.map fun _ => some ⟨position, []⟩) after (.round position trace .nothing)
  | zeroOrMoreGoesOn {active rule body position session first middle trace answer after
      traceAfter} :
      Runs grammar tokens memoize active rule body position session (.ok (some first)) middle
        trace ->
      first.next ≠ position ->
      Runs grammar tokens memoize active rule (.zeroOrMore body) first.next middle answer after
        traceAfter ->
      Runs grammar tokens memoize active rule (.zeroOrMore body) position session
        (answer.map (Option.map first.followedBy)) after (.round position trace traceAfter)
  | oneOrMoreStops {active rule body position session answer after trace} :
      Runs grammar tokens memoize active rule body position session answer after trace ->
      (forall first, answer = .ok (some first) -> first.next = position) ->
      Runs grammar tokens memoize active rule (.oneOrMore body) position session
        (answer.map (Option.map fun _ => ⟨position, []⟩)) after (.round position trace .nothing)
  | oneOrMoreGoesOn {active rule body position session first middle trace answer after
      traceAfter} :
      Runs grammar tokens memoize active rule body position session (.ok (some first)) middle
        trace ->
      first.next ≠ position ->
      Runs grammar tokens memoize active rule (.zeroOrMore body) first.next middle answer after
        traceAfter ->
      Runs grammar tokens memoize active rule (.oneOrMore body) position session
        (answer.map (Option.map first.followedBy)) after (.round position trace traceAfter)

end Matching
end Packrat
