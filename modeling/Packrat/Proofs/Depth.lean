import Packrat.Proofs.Memo

namespace Packrat

/-!
# The depth of calls

Matching counts the frames that are left, and a repetition compares places with the number of
tokens.  Neither bound is ever what ends a match.  Places never go back and never leave the tokens,
so a call inside other calls is in one of finitely many frames; when none is left its frame is
active.  Hence matching is a run, which knows no bounds.
-/

variable {grammar : Grammar} {tokens : Array Token} {memoize : Bool} {active : List Frame}
  {rule name : String} {position start depth : Nat} {before middle after : Session}

namespace Matching

/-! ## How computations end -/

/-- A computation goes from a session to a result, which may be an error, and a session. -/
def Ends {α : Type} (matching : Matching α) (before : Session) (result : Except GrammarError α)
    (after : Session) : Prop :=
  matching before =
    match result with
    | .ok value => .ok value after
    | .error error => .error error after

namespace Ends

variable {α β : Type} {matching : Matching α} {further : α -> Matching β} {value : α}
  {error : GrammarError} {result : Except GrammarError β}

theorem pure (value : α) (session : Session) : Ends (Pure.pure value) session (.ok value) session :=
  rfl

theorem bind (first : Ends matching before (.ok value) middle)
    (rest : Ends (further value) middle result after) :
    Ends (matching >>= further) before result after := by
  show EStateM.bind matching further before = _
  rw [EStateM.bind, first]
  exact rest

theorem bind_error (first : Ends matching before (.error error) after) :
    Ends (matching >>= further) before (.error error) after := by
  show EStateM.bind matching further before = _
  rw [EStateM.bind, first]

theorem map {change : α -> β} {result : Except GrammarError α}
    (ends : Ends matching before result after) :
    Ends (do let value ← matching; Pure.pure (change value)) before (result.map change) after := by
  cases result with
  | error error => exact ends.bind_error
  | ok value => exact ends.bind (pure _ _)

theorem test (question : TokenTest) :
    Ends (Matching.test tokens rule question position) before
      (.ok (question.step? tokens position)) (before.tested tokens rule question position) := by
  unfold Matching.test TokenTest.step? Session.tested TokenTest.passesAt
  cases tokens[position]? with
  | none => exact rfl
  | some token =>
    rw [Option.any_some]
    cases passed : question.passes token <;> simp only [passed] <;> exact rfl

theorem refusal : Ends Matching.refusal before (.ok none) before.refuse :=
  rfl

end Ends

/-! ## Frames -/

/-- The places from a start on that a match may visit. -/
def Visited (tokens : Array Token) (start position : Nat) : Prop :=
  start ≤ position ∧ position ≤ max start tokens.size

/-- The frames of the rules of a grammar from a start on. -/
def framesFrom (grammar : Grammar) (tokens : Array Token) (start : Nat) : List Frame :=
  grammar.ruleNames.flatMap fun name =>
    (List.range (tokens.size + 1)).map fun offset => ⟨name, start + offset⟩

theorem length_framesFrom :
    (framesFrom grammar tokens start).length = frames grammar tokens.size := by
  simp only [framesFrom, List.length_flatMap, List.length_map, List.length_range, List.map_const',
    List.sum_replicate_nat, frames, Grammar.ruleNames, Grammar.size]

theorem mem_framesFrom {target : Rule} (found : grammar.find? name = some target)
    (visited : Visited tokens start position) :
    ⟨name, position⟩ ∈ framesFrom grammar tokens start := by
  have listed : name ∈ grammar.ruleNames :=
    List.mem_map.mpr ⟨target, Grammar.mem_rules_of_find? found⟩
  refine List.mem_flatMap.mpr ⟨name, listed, List.mem_map.mpr ⟨position - start, ?_, ?_⟩⟩
  · have := visited.1
    have := visited.2
    rw [List.mem_range]
    omega
  · rw [Nat.add_sub_cancel' visited.1]

/-- The active frames are different frames from a start on, and with the depth that is left there
are as many as all. -/
structure Deep (grammar : Grammar) (tokens : Array Token) (start depth : Nat)
    (active : List Frame) : Prop where
  nodup : active.Nodup
  subset : active ⊆ framesFrom grammar tokens start
  enough : frames grammar tokens.size ≤ active.length + depth

theorem deep_start : Deep grammar tokens start (frames grammar tokens.size) [] :=
  ⟨List.nodup_nil, List.nil_subset _, by simp⟩

namespace Deep

variable {target : Rule}

/-- A frame that is not active leaves some depth. -/
theorem pos (deep : Deep grammar tokens start depth active)
    (found : grammar.find? name = some target) (visited : Visited tokens start position)
    (absent : ⟨name, position⟩ ∉ active) : 0 < depth := by
  have nodup : (⟨name, position⟩ :: active).Nodup := List.nodup_cons.mpr ⟨absent, deep.nodup⟩
  have subset : ⟨name, position⟩ :: active ⊆ framesFrom grammar tokens start :=
    List.cons_subset.mpr ⟨mem_framesFrom found visited, deep.subset⟩
  have bound := nodup.length_le_of_subset subset
  rw [length_framesFrom, List.length_cons] at bound
  have := deep.enough
  omega

theorem cons (deep : Deep grammar tokens start (depth + 1) active)
    (found : grammar.find? name = some target) (visited : Visited tokens start position)
    (absent : ⟨name, position⟩ ∉ active) :
    Deep grammar tokens start depth (⟨name, position⟩ :: active) := by
  refine ⟨List.nodup_cons.mpr ⟨absent, deep.nodup⟩,
    List.cons_subset.mpr ⟨mem_framesFrom found visited, deep.subset⟩, ?_⟩
  have := deep.enough
  rw [List.length_cons]
  omega

end Deep

theorem Visited.of_covers {step : Step} (visited : Visited tokens start position)
    (covers : step.Covers tokens.size position) : Visited tokens start step.next := by
  have := visited.1
  have := visited.2
  have := covers.le_next
  have := covers.next_le
  constructor <;> omega

/-! ## Matching is a run -/

/-- A way to match an expression that comes to an end at every visited place, and does so as a
run. -/
def PartRuns (grammar : Grammar) (tokens : Array Token) (memoize : Bool) (start : Nat)
    (active : List Frame) (rule : String) (expression : Expression)
    (matching : Nat -> Matching (Option Step)) : Prop :=
  forall position before, Visited tokens start position ->
    before.Sound grammar tokens memoize active ->
    Exists fun answer => Exists fun after => Exists fun trace =>
      Ends (matching position) before answer after ∧
        Runs grammar tokens memoize active rule expression position before answer after trace

/-- A way to call rules that comes to an end at every visited place, and does so as a run. -/
def CallsRun (grammar : Grammar) (tokens : Array Token) (memoize : Bool) (start : Nat)
    (active : List Frame) (call : String -> Nat -> Matching (Option Tree)) : Prop :=
  forall rule name position before, Visited tokens start position ->
    before.Sound grammar tokens memoize active ->
    Exists fun result => Exists fun after => Exists fun trace =>
      Ends (call name position) before result after ∧
        Runs grammar tokens memoize active rule (.rule name) position before
          (result.map (Option.map Tree.step)) after trace

theorem repeated_runs {body : Expression} {matching : Nat -> Matching (Option Step)}
    (bodyRuns : PartRuns grammar tokens memoize start active rule body matching)
    (visited : Visited tokens start position)
    (sound : before.Sound grammar tokens memoize active) :
    Exists fun rounds : Except GrammarError Rounds => Exists fun after => Exists fun trace =>
      Ends (repeated tokens.size matching position) before rounds after ∧
        Runs grammar tokens memoize active rule (.zeroOrMore body) position before
          (rounds.map fun rounds => some rounds.step) after trace ∧
        Runs grammar tokens memoize active rule (.oneOrMore body) position before
          (rounds.map fun rounds => if rounds.count = 0 then none else some rounds.step) after
          trace := by
  induction left : tokens.size - position using Nat.strongRecOn generalizing position before with
  | ind left inductionHypothesis =>
    rcases bodyRuns position before visited sound with ⟨answer, middle, trace, ends, runs⟩
    rw [repeated]
    rcases answer with error | none | step
    · have stays : forall first, (.error error : Answer) = .ok (some first) ->
          first.next = position := fun _ impossible => by cases impossible
      exact ⟨.error error, middle, _, ends.bind_error, .zeroOrMoreStops runs stays,
        .oneOrMoreStops runs stays⟩
    · have stays : forall first, (.ok none : Answer) = .ok (some first) ->
          first.next = position := fun _ impossible => by cases impossible
      exact ⟨.ok ⟨⟨position, []⟩, 0⟩, middle, _, ends.bind (.pure _ _),
        .zeroOrMoreStops runs stays, .oneOrMoreStops runs stays⟩
    · rcases runs.resumes sound with ⟨soundMiddle, covers⟩
      have visitedNext := visited.of_covers covers
      by_cases same : step.next = position
      · have notAdvances : ¬ (position < step.next ∧ step.next ≤ tokens.size) := by omega
        have stays : forall first, (.ok (some step) : Answer) = .ok (some first) ->
            first.next = position := fun first equal => by cases equal; exact same
        refine ⟨.ok ⟨⟨position, []⟩, 1⟩, middle, _, ends.bind ?_, .zeroOrMoreStops runs stays,
          .oneOrMoreStops runs stays⟩
        simp only [dif_neg notAdvances]
        exact .pure _ _
      · have forward := covers.le_next
        have bound := covers.next_le
        have advances : position < step.next ∧ step.next ≤ tokens.size := by omega
        rcases inductionHypothesis (tokens.size - step.next) (by omega) visitedNext soundMiddle rfl
          with ⟨rounds, after, traceAfter, further, star, -⟩
        refine ⟨rounds.map fun rounds => ⟨step.followedBy rounds.step, rounds.count + 1⟩, after,
          .round position trace traceAfter, ends.bind ?_, ?_, ?_⟩
        · simp only [dif_pos advances]
          exact further.map
        · have whole := Runs.zeroOrMoreGoesOn runs same star
          cases rounds <;> exact whole
        · have whole := Runs.oneOrMoreGoesOn runs same star
          cases rounds <;> exact whole

mutual

/-- Matching an expression runs if calling rules does. -/
theorem part_runs {call : String -> Nat -> Matching (Option Tree)}
    (calls : CallsRun grammar tokens memoize start active call) : (expression : Expression) ->
      PartRuns grammar tokens memoize start active rule expression
        (part tokens call rule expression)
  | .literal kind text => fun position before _ _ => ⟨_, _, _, .test _, .literal⟩
  | .mock => fun position before _ _ => ⟨_, _, _, .test _, .mock⟩
  | .rule name => by
    intro position before visited sound
    rcases calls rule name position before visited sound with ⟨result, after, trace, ends, runs⟩
    refine ⟨_, after, trace, ?_, runs⟩
    exact ends.map
  | .sequence items => by
    intro position before visited sound
    rw [part]
    exact inOrder_runs calls items position before visited sound
  | .choice alternatives => by
    intro position before visited sound
    rw [part]
    exact firstOf_runs calls alternatives position before visited sound
  | .optional body => by
    intro position before visited sound
    rcases part_runs calls body position before visited sound with
      ⟨answer, after, trace, ends, runs⟩
    rw [part]
    exact ⟨_, after, trace, ends.map, .optional runs⟩
  | .zeroOrMore body => by
    intro position before visited sound
    rcases repeated_runs (part_runs calls body) visited sound with
      ⟨rounds, after, trace, ends, star, -⟩
    rw [part]
    exact ⟨_, after, trace, ends.map, star⟩
  | .oneOrMore body => by
    intro position before visited sound
    rcases repeated_runs (part_runs calls body) visited sound with
      ⟨rounds, after, trace, ends, -, plus⟩
    rw [part]
    exact ⟨_, after, trace, ends.map, plus⟩

theorem inOrder_runs {call : String -> Nat -> Matching (Option Tree)}
    (calls : CallsRun grammar tokens memoize start active call) : (items : List Expression) ->
      PartRuns grammar tokens memoize start active rule (.sequence items)
        (inOrder tokens call rule items)
  | [] => fun position before _ _ => ⟨_, _, _, .pure _ _, .sequenceNil⟩
  | item :: items => by
    intro position before visited sound
    rcases part_runs calls item position before visited sound with
      ⟨answer, middle, trace, ends, runs⟩
    rw [inOrder]
    rcases answer with error | none | step
    · exact ⟨_, middle, trace, ends.bind_error, .sequenceStops runs (by intro _ same; cases same)⟩
    · exact ⟨_, middle, trace, ends.bind (.pure _ _),
        .sequenceStops runs (by intro _ same; cases same)⟩
    · rcases runs.resumes sound with ⟨soundMiddle, covers⟩
      rcases inOrder_runs calls items step.next middle (visited.of_covers covers) soundMiddle with
        ⟨answer, after, traceAfter, further, rest⟩
      exact ⟨_, after, _, ends.bind further.map, .sequenceGoesOn runs rest⟩

theorem firstOf_runs {call : String -> Nat -> Matching (Option Tree)}
    (calls : CallsRun grammar tokens memoize start active call) : (items : List Expression) ->
      PartRuns grammar tokens memoize start active rule (.choice items)
        (firstOf tokens call rule items)
  | [] => fun position before _ _ => ⟨_, _, _, .pure _ _, .choiceNil⟩
  | alternative :: alternatives => by
    intro position before visited sound
    rcases part_runs calls alternative position before visited sound with
      ⟨answer, middle, trace, ends, runs⟩
    rw [firstOf]
    rcases answer with error | none | step
    · exact ⟨_, middle, trace, ends.bind_error, .choiceStops runs (by intro same; cases same)⟩
    · rcases runs.evaluates sound with ⟨-, -, soundMiddle, -⟩
      rcases firstOf_runs calls alternatives position middle visited soundMiddle with
        ⟨answer, after, traceAfter, further, rest⟩
      exact ⟨_, after, _, ends.bind further, .choiceGoesOn runs rest⟩
    · exact ⟨_, middle, trace, ends.bind (.pure _ _),
        .choiceStops runs (by intro same; cases same)⟩

end

/-! ## Calls -/

namespace Ends

variable {frame : Frame} {target : Rule} {enter : Rule -> Matching (Option Tree)}
  {result : Except GrammarError (Option Tree)}

theorem answer_undefined (missing : grammar.find? frame.rule = none) :
    Ends (answer grammar memoize frame enter) before (.error (.undefinedRule frame.rule none))
      before := by
  unfold answer
  rw [missing]
  exact rfl

theorem answer_recalled {tree : Option Tree} (found : grammar.find? frame.rule = some target)
    (used : memoize = true) (recalled : before.recalled? frame = some tree) :
    Ends (answer grammar memoize frame enter) before (.ok tree) before := by
  unfold answer
  rw [found, used]
  have current : Ends get before (.ok before) before := rfl
  refine current.bind ?_
  rw [Session.recalled?] at recalled
  simp only [if_true, recalled]
  exact .pure _ _

theorem answer_enters (found : grammar.find? frame.rule = some target)
    (forgotten : memoize = true -> before.recalled? frame = none)
    (ends : Ends (enter target) before result after) :
    Ends (answer grammar memoize frame enter) before result after := by
  unfold answer
  rw [found]
  have current : Ends get before (.ok before) before := rfl
  refine current.bind ?_
  have nothing : (if memoize then before.memo[frame]? else none) = none := by
    cases used : memoize with
    | true => exact forgotten used
    | false => rfl
  simp only [nothing]
  exact ends

theorem entered {answer : Answer} {inside : String -> Nat -> Matching (Option Tree)}
    (ends : Ends (part tokens inside frame.rule target.effective frame.position) before answer
      after) :
    Ends (Matching.enter tokens memoize frame inside target) before
      (answer.map (Option.map fun step => Tree.ofRule frame.rule frame.position step.nodes))
      (Session.settled memoize before frame answer after) := by
  unfold Matching.enter
  have current : Ends get before (.ok before) before := rfl
  refine current.bind ?_
  rcases answer with error | step
  · exact ends.bind_error
  · refine ends.bind ?_
    have now : Ends get after (.ok after) after := rfl
    refine now.bind ?_
    simp only [Session.settled]
    split <;> exact rfl

end Ends

/-- A call comes to an end as a run if it does so when its rule is neither undefined nor
remembered. -/
theorem answer_runs {enter : Rule -> Matching (Option Tree)}
    (enters : forall target, grammar.find? name = some target ->
      (memoize = true -> before.recalled? ⟨name, position⟩ = none) ->
      Exists fun result => Exists fun after => Exists fun trace =>
        Ends (enter target) before result after ∧
          Runs grammar tokens memoize active rule (.rule name) position before
            (result.map (Option.map Tree.step)) after trace) :
    Exists fun result => Exists fun after => Exists fun trace =>
      Ends (answer grammar memoize ⟨name, position⟩ enter) before result after ∧
        Runs grammar tokens memoize active rule (.rule name) position before
          (result.map (Option.map Tree.step)) after trace := by
  cases found : grammar.find? name with
  | none => exact ⟨_, before, _, .answer_undefined found, .undefined found⟩
  | some target =>
    by_cases forgotten : memoize = true -> before.recalled? ⟨name, position⟩ = none
    · rcases enters target found forgotten with ⟨result, after, trace, ends, runs⟩
      exact ⟨result, after, trace, .answer_enters found forgotten ends, runs⟩
    · rcases Classical.not_imp.mp forgotten with ⟨used, known⟩
      rcases Option.ne_none_iff_exists'.mp known with ⟨tree, recalled⟩
      exact ⟨.ok tree, before, _, .answer_recalled found used recalled,
        .recalled found used recalled⟩

theorem call_runs (deep : Deep grammar tokens start depth active) :
    CallsRun grammar tokens memoize start active (call grammar tokens memoize depth active) := by
  induction depth generalizing active with
  | zero =>
    intro rule name position before visited sound
    rw [call]
    refine answer_runs fun target found forgotten => ?_
    by_cases member : ⟨name, position⟩ ∈ active
    · exact ⟨.ok none, _, _, .refusal, .refused found forgotten member⟩
    · exact absurd (deep.pos found visited member) (Nat.lt_irrefl 0)
  | succ depth inductionHypothesis =>
    intro rule name position before visited sound
    rw [call]
    refine answer_runs fun target found forgotten => ?_
    by_cases member : ⟨name, position⟩ ∈ active
    · rw [if_pos (List.contains_iff_mem.mpr member)]
      exact ⟨.ok none, _, _, .refusal, .refused found forgotten member⟩
    · rw [if_neg fun listed => member (List.contains_iff_mem.mp listed)]
      have calls := inductionHypothesis (deep.cons found visited member)
      have soundInside : before.Sound grammar tokens memoize (⟨name, position⟩ :: active) :=
        sound.activate forgotten
      rcases part_runs calls target.effective position before visited soundInside with
        ⟨answer, after, trace, ends, runs⟩
      refine ⟨_, _, .entered ⟨name, position⟩ trace, .entered ends, ?_⟩
      have whole : Runs grammar tokens memoize active rule (.rule name) position before _ _ _ :=
        .called found forgotten member runs
      rcases answer with error | none | step <;> exact whole

theorem start_runs (grammar : Grammar) (tokens : Array Token) (memoize : Bool)
    (rule name : String) (start : Nat) :
    Exists fun result => Exists fun after => Exists fun trace =>
      Ends (Matching.start grammar tokens memoize name start) {} result after ∧
        Runs grammar tokens memoize [] rule (.rule name) start {}
          (result.map (Option.map Tree.step)) after trace :=
  call_runs deep_start rule name start {} ⟨Nat.le_refl _, Nat.le_max_left _ _⟩ Session.sound_empty

end Matching
end Packrat
