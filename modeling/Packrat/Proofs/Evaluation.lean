import Packrat.Proofs.Answer

namespace Packrat

/-!
# Evaluation without a memory

What matching an expression comes to, as a relation: nothing is remembered, no depth is counted,
and the state of a session is replaced by a log of what happened.  A call is refused exactly when
its frame is active, so the relation still describes left-recursive grammars.

A derivation is a finite object.  That there is one for every expression at every place is proved
elsewhere; here are the facts that hold of each derivation.  Its answer and log are determined, the
nodes of a step cover the tokens up to the place after it, and a derivation without a refused call
does not depend on the active frames.
-/

namespace Matching

/-- Evaluation of an expression of a rule at a place while some frames are active, with its answer
and its log. -/
inductive Evaluates (grammar : Grammar) (tokens : Array Token) :
    List Frame -> String -> Expression -> Nat -> Answer -> Log -> Prop
  | literal {active rule kind text position} :
      Evaluates grammar tokens active rule (.literal kind text) position
        (.ok ((TokenTest.literal kind text).step? tokens position))
        ((TokenTest.literal kind text).log tokens rule position)
  | mock {active rule position} :
      Evaluates grammar tokens active rule .mock position
        (.ok ((TokenTest.spelling rule).step? tokens position))
        ((TokenTest.spelling rule).log tokens rule position)
  | undefined {active rule name position} :
      grammar.find? name = none ->
      Evaluates grammar tokens active rule (.rule name) position
        (.error (.undefinedRule name none)) []
  | refused {active rule name position target} :
      grammar.find? name = some target -> ⟨name, position⟩ ∈ active ->
      Evaluates grammar tokens active rule (.rule name) position (.ok none)
        [.refused ⟨name, position⟩]
  | called {active rule name position target answer log} :
      grammar.find? name = some target -> ⟨name, position⟩ ∉ active ->
      Evaluates grammar tokens (⟨name, position⟩ :: active) name target.effective position
        answer log ->
      Evaluates grammar tokens active rule (.rule name) position
        (answer.map (Option.map (Step.under ⟨name, position⟩)))
        (.entered ⟨name, position⟩ :: log)
  | sequenceNil {active rule position} :
      Evaluates grammar tokens active rule (.sequence []) position (.ok (some ⟨position, []⟩)) []
  | sequenceStops {active rule item items position answer log} :
      Evaluates grammar tokens active rule item position answer log ->
      (forall first, answer ≠ .ok (some first)) ->
      Evaluates grammar tokens active rule (.sequence (item :: items)) position answer log
  | sequenceGoesOn {active rule item items position first answer log logAfter} :
      Evaluates grammar tokens active rule item position (.ok (some first)) log ->
      Evaluates grammar tokens active rule (.sequence items) first.next answer logAfter ->
      Evaluates grammar tokens active rule (.sequence (item :: items)) position
        (answer.map (Option.map first.followedBy)) (log ++ logAfter)
  | choiceNil {active rule position} :
      Evaluates grammar tokens active rule (.choice []) position (.ok none) []
  | choiceStops {active rule alternative alternatives position answer log} :
      Evaluates grammar tokens active rule alternative position answer log ->
      answer ≠ .ok none ->
      Evaluates grammar tokens active rule (.choice (alternative :: alternatives)) position
        answer log
  | choiceGoesOn {active rule alternative alternatives position answer log logAfter} :
      Evaluates grammar tokens active rule alternative position (.ok none) log ->
      Evaluates grammar tokens active rule (.choice alternatives) position answer logAfter ->
      Evaluates grammar tokens active rule (.choice (alternative :: alternatives)) position
        answer (log ++ logAfter)
  | optional {active rule body position answer log} :
      Evaluates grammar tokens active rule body position answer log ->
      Evaluates grammar tokens active rule (.optional body) position
        (answer.map fun step => some (step.getD ⟨position, []⟩)) log
  | zeroOrMoreStops {active rule body position answer log} :
      Evaluates grammar tokens active rule body position answer log ->
      (forall first, answer = .ok (some first) -> first.next = position) ->
      Evaluates grammar tokens active rule (.zeroOrMore body) position
        (answer.map fun _ => some ⟨position, []⟩) log
  | zeroOrMoreGoesOn {active rule body position first answer log logAfter} :
      Evaluates grammar tokens active rule body position (.ok (some first)) log ->
      first.next ≠ position ->
      Evaluates grammar tokens active rule (.zeroOrMore body) first.next answer logAfter ->
      Evaluates grammar tokens active rule (.zeroOrMore body) position
        (answer.map (Option.map first.followedBy)) (log ++ logAfter)
  | oneOrMoreStops {active rule body position answer log} :
      Evaluates grammar tokens active rule body position answer log ->
      (forall first, answer = .ok (some first) -> first.next = position) ->
      Evaluates grammar tokens active rule (.oneOrMore body) position
        (answer.map (Option.map fun _ => ⟨position, []⟩)) log
  | oneOrMoreGoesOn {active rule body position first answer log logAfter} :
      Evaluates grammar tokens active rule body position (.ok (some first)) log ->
      first.next ≠ position ->
      Evaluates grammar tokens active rule (.zeroOrMore body) first.next answer logAfter ->
      Evaluates grammar tokens active rule (.oneOrMore body) position
        (answer.map (Option.map first.followedBy)) (log ++ logAfter)

variable {grammar : Grammar} {tokens : Array Token} {active : List Frame} {rule : String}
  {expression : Expression} {position : Nat} {answer : Answer} {log : Log}

namespace Evaluates

/-! ## One answer and one log -/

/-- Evaluation is a function of the active frames, the rule, the expression and the place. -/
theorem unique {other : Answer} {otherLog : Log}
    (evaluates : Evaluates grammar tokens active rule expression position answer log)
    (again : Evaluates grammar tokens active rule expression position other otherLog) :
    answer = other ∧ log = otherLog := by
  -- A rule for a composite expression is chosen by the answer of its first part.
  induction evaluates generalizing other otherLog with
  | literal => cases again; exact ⟨rfl, rfl⟩
  | mock => cases again; exact ⟨rfl, rfl⟩
  | undefined missing =>
    cases again with
    | undefined => exact ⟨rfl, rfl⟩
    | refused found => rw [missing] at found; cases found
    | called found => rw [missing] at found; cases found
  | refused found member =>
    cases again with
    | undefined missing => rw [missing] at found; cases found
    | refused => exact ⟨rfl, rfl⟩
    | called _ absent => exact absurd member absent
  | called found absent inside inductionHypothesis =>
    cases again with
    | undefined missing => rw [missing] at found; cases found
    | refused _ member => exact absurd member absent
    | called found' _ inside' =>
      cases found.symm.trans found'
      rcases inductionHypothesis inside' with ⟨rfl, rfl⟩
      exact ⟨rfl, rfl⟩
  | sequenceNil => cases again; exact ⟨rfl, rfl⟩
  | sequenceStops _ stops inductionHypothesis =>
    cases again with
    | sequenceStops item' => exact inductionHypothesis item'
    | sequenceGoesOn item' => exact absurd (inductionHypothesis item').1 (stops _)
  | sequenceGoesOn _ _ itemHypothesis restHypothesis =>
    cases again with
    | sequenceStops item' stops => exact absurd (itemHypothesis item').1.symm (stops _)
    | sequenceGoesOn item' rest' =>
      rcases itemHypothesis item' with ⟨same, rfl⟩
      cases same
      rcases restHypothesis rest' with ⟨rfl, rfl⟩
      exact ⟨rfl, rfl⟩
  | choiceNil => cases again; exact ⟨rfl, rfl⟩
  | choiceStops _ stops inductionHypothesis =>
    cases again with
    | choiceStops first' => exact inductionHypothesis first'
    | choiceGoesOn first' => exact absurd (inductionHypothesis first').1 stops
  | choiceGoesOn _ _ firstHypothesis restHypothesis =>
    cases again with
    | choiceStops first' stops => exact absurd (firstHypothesis first').1.symm stops
    | choiceGoesOn first' rest' =>
      rcases firstHypothesis first' with ⟨-, rfl⟩
      rcases restHypothesis rest' with ⟨rfl, rfl⟩
      exact ⟨rfl, rfl⟩
  | optional _ inductionHypothesis =>
    cases again with
    | optional body' =>
      rcases inductionHypothesis body' with ⟨rfl, rfl⟩
      exact ⟨rfl, rfl⟩
  | zeroOrMoreStops _ stays inductionHypothesis =>
    cases again with
    | zeroOrMoreStops body' =>
      rcases inductionHypothesis body' with ⟨rfl, rfl⟩
      exact ⟨rfl, rfl⟩
    | zeroOrMoreGoesOn body' moves =>
      exact absurd (stays _ (inductionHypothesis body').1) moves
  | zeroOrMoreGoesOn _ moves _ bodyHypothesis restHypothesis =>
    cases again with
    | zeroOrMoreStops body' stays =>
      exact absurd (stays _ (bodyHypothesis body').1.symm) moves
    | zeroOrMoreGoesOn body' _ rest' =>
      rcases bodyHypothesis body' with ⟨same, rfl⟩
      cases same
      rcases restHypothesis rest' with ⟨rfl, rfl⟩
      exact ⟨rfl, rfl⟩
  | oneOrMoreStops _ stays inductionHypothesis =>
    cases again with
    | oneOrMoreStops body' =>
      rcases inductionHypothesis body' with ⟨rfl, rfl⟩
      exact ⟨rfl, rfl⟩
    | oneOrMoreGoesOn body' moves =>
      exact absurd (stays _ (inductionHypothesis body').1) moves
  | oneOrMoreGoesOn _ moves _ bodyHypothesis restHypothesis =>
    cases again with
    | oneOrMoreStops body' stays =>
      exact absurd (stays _ (bodyHypothesis body').1.symm) moves
    | oneOrMoreGoesOn body' _ rest' =>
      rcases bodyHypothesis body' with ⟨same, rfl⟩
      cases same
      rcases restHypothesis rest' with ⟨rfl, rfl⟩
      exact ⟨rfl, rfl⟩

/-! ## Steps cover tokens -/

/-- What the nodes cover and where the step ends agree, and a step never goes back or beyond the
tokens. -/
theorem covers (evaluates : Evaluates grammar tokens active rule expression position answer log) :
    forall step, answer = .ok (some step) -> step.Covers tokens.size position := by
  induction evaluates with
  | literal => exact fun step passed => TokenTest.step?_covers (Except.ok.inj passed)
  | mock => exact fun step passed => TokenTest.step?_covers (Except.ok.inj passed)
  | undefined => intro step impossible; cases impossible
  | refused => intro step impossible; cases impossible
  | called _ _ _ inductionHypothesis =>
    intro step matched
    rcases Answer.map_eq_some matched with ⟨inside, same, rfl⟩
    exact (inductionHypothesis inside same).under _
  | sequenceNil =>
    intro step matched
    cases matched
    exact .nothing _ _
  | sequenceStops _ stops _ =>
    intro step matched
    exact absurd matched (stops step)
  | sequenceGoesOn _ _ itemHypothesis restHypothesis =>
    intro step matched
    rcases Answer.map_eq_some matched with ⟨rest, same, rfl⟩
    exact (itemHypothesis _ rfl).followedBy (restHypothesis rest same)
  | choiceNil => intro step impossible; cases impossible
  | choiceStops _ _ inductionHypothesis => exact inductionHypothesis
  | choiceGoesOn _ _ _ restHypothesis => exact restHypothesis
  | @optional _ _ _ position answer _ _ inductionHypothesis =>
    intro step matched
    rcases answer with error | found
    · cases matched
    · cases matched
      cases found with
      | none => exact .nothing _ _
      | some found => exact inductionHypothesis found rfl
  | @zeroOrMoreStops _ _ _ _ answer =>
    intro step matched
    rcases answer with error | found <;> cases matched
    exact .nothing _ _
  | zeroOrMoreGoesOn _ _ _ bodyHypothesis restHypothesis =>
    intro step matched
    rcases Answer.map_eq_some matched with ⟨rest, same, rfl⟩
    exact (bodyHypothesis _ rfl).followedBy (restHypothesis rest same)
  | oneOrMoreStops =>
    intro step matched
    rcases Answer.map_eq_some matched with ⟨first, -, rfl⟩
    exact .nothing _ _
  | oneOrMoreGoesOn _ _ _ bodyHypothesis restHypothesis =>
    intro step matched
    rcases Answer.map_eq_some matched with ⟨rest, same, rfl⟩
    exact (bodyHypothesis _ rfl).followedBy (restHypothesis rest same)

/-! ## Independence of the active frames -/

/-- No frame is entered while it is active. -/
theorem not_mem_of_entered
    (evaluates : Evaluates grammar tokens active rule expression position answer log) :
    forall frame, .entered frame ∈ log -> frame ∉ active := by
  induction evaluates with
  | literal =>
    intro frame entered
    cases TokenTest.failed_of_mem_log entered
  | mock =>
    intro frame entered
    cases TokenTest.failed_of_mem_log entered
  | undefined => intro frame impossible; cases impossible
  | refused =>
    intro frame entered
    cases List.mem_singleton.mp entered
  | called _ absent _ inductionHypothesis =>
    intro frame entered
    rcases List.mem_cons.mp entered with same | inside
    · cases same
      exact absent
    · exact fun member => inductionHypothesis frame inside (List.mem_cons_of_mem _ member)
  | sequenceNil => intro frame impossible; cases impossible
  | sequenceStops _ _ inductionHypothesis => exact inductionHypothesis
  | sequenceGoesOn _ _ itemHypothesis restHypothesis =>
    intro frame entered
    rcases List.mem_append.mp entered with earlier | later
    · exact itemHypothesis frame earlier
    · exact restHypothesis frame later
  | choiceNil => intro frame impossible; cases impossible
  | choiceStops _ _ inductionHypothesis => exact inductionHypothesis
  | choiceGoesOn _ _ firstHypothesis restHypothesis =>
    intro frame entered
    rcases List.mem_append.mp entered with earlier | later
    · exact firstHypothesis frame earlier
    · exact restHypothesis frame later
  | optional _ inductionHypothesis => exact inductionHypothesis
  | zeroOrMoreStops _ _ inductionHypothesis => exact inductionHypothesis
  | zeroOrMoreGoesOn _ _ _ bodyHypothesis restHypothesis =>
    intro frame entered
    rcases List.mem_append.mp entered with earlier | later
    · exact bodyHypothesis frame earlier
    · exact restHypothesis frame later
  | oneOrMoreStops _ _ inductionHypothesis => exact inductionHypothesis
  | oneOrMoreGoesOn _ _ _ bodyHypothesis restHypothesis =>
    intro frame entered
    rcases List.mem_append.mp entered with earlier | later
    · exact bodyHypothesis frame earlier
    · exact restHypothesis frame later

/-- An evaluation without a refused call is the same under all active frames that it does not
enter. -/
theorem under_active
    (evaluates : Evaluates grammar tokens active rule expression position answer log)
    {other : List Frame} (unrefused : log.refusals = 0)
    (apart : forall frame, .entered frame ∈ log -> frame ∉ other) :
    Evaluates grammar tokens other rule expression position answer log := by
  induction evaluates generalizing other with
  | literal => exact .literal
  | mock => exact .mock
  | undefined missing => exact .undefined missing
  | refused => cases unrefused
  | called found absent inside inductionHypothesis =>
    refine .called found (apart _ List.mem_cons_self) (inductionHypothesis unrefused ?_)
    intro frame entered member
    rcases List.mem_cons.mp member with rfl | member
    · exact inside.not_mem_of_entered _ entered List.mem_cons_self
    · exact apart frame (List.mem_cons_of_mem _ entered) member
  | sequenceNil => exact .sequenceNil
  | sequenceStops _ stops inductionHypothesis =>
    exact .sequenceStops (inductionHypothesis unrefused apart) stops
  | sequenceGoesOn _ _ itemHypothesis restHypothesis =>
    rcases Log.unrefused_append unrefused apart with ⟨⟨none, apart⟩, ⟨none', apart'⟩⟩
    exact .sequenceGoesOn (itemHypothesis none apart) (restHypothesis none' apart')
  | choiceNil => exact .choiceNil
  | choiceStops _ stops inductionHypothesis =>
    exact .choiceStops (inductionHypothesis unrefused apart) stops
  | choiceGoesOn _ _ firstHypothesis restHypothesis =>
    rcases Log.unrefused_append unrefused apart with ⟨⟨none, apart⟩, ⟨none', apart'⟩⟩
    exact .choiceGoesOn (firstHypothesis none apart) (restHypothesis none' apart')
  | optional _ inductionHypothesis => exact .optional (inductionHypothesis unrefused apart)
  | zeroOrMoreStops _ stays inductionHypothesis =>
    exact .zeroOrMoreStops (inductionHypothesis unrefused apart) stays
  | zeroOrMoreGoesOn _ moves _ bodyHypothesis restHypothesis =>
    rcases Log.unrefused_append unrefused apart with ⟨⟨none, apart⟩, ⟨none', apart'⟩⟩
    exact .zeroOrMoreGoesOn (bodyHypothesis none apart) moves (restHypothesis none' apart')
  | oneOrMoreStops _ stays inductionHypothesis =>
    exact .oneOrMoreStops (inductionHypothesis unrefused apart) stays
  | oneOrMoreGoesOn _ moves _ bodyHypothesis restHypothesis =>
    rcases Log.unrefused_append unrefused apart with ⟨⟨none, apart⟩, ⟨none', apart'⟩⟩
    exact .oneOrMoreGoesOn (bodyHypothesis none apart) moves (restHypothesis none' apart')

end Evaluates
end Matching
end Packrat
