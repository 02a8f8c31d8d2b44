import Packrat.Proofs.Evaluation
import Packrat.Proofs.Run

namespace Packrat

/-!
# What a session may remember

A remembered result is given again under other active frames than it was found under, and the
failed tests behind it are not noted again.  Both are harmless, because of an invariant of
sessions: a remembered result comes from an evaluation without a refused call, every frame that the
evaluation entered is remembered too, and its failed tests are covered by the furthest failure.
Remembered frames are never active, so the evaluation is the same wherever its result is given
again.

Hence a run answers as the evaluation does, with or without a memory, and leaves the same number of
refused calls and the same furthest failure as the log of the evaluation.
-/

variable {grammar : Grammar} {tokens : Array Token} {memoize : Bool} {active : List Frame}
  {rule : String} {expression : Expression} {position : Nat} {session middle after : Session}
  {answer : Answer} {log logAfter : Log} {trace : Trace} {frame : Frame}

namespace Matching

/-- The enclosing rule does not matter for a call. -/
theorem Evaluates.of_call {other name : String}
    (evaluates : Evaluates grammar tokens active rule (.rule name) position answer log) :
    Evaluates grammar tokens active other (.rule name) position answer log := by
  cases evaluates with
  | undefined missing => exact .undefined missing
  | refused found member => exact .refused found member
  | called found absent inside => exact .called found absent inside

end Matching

namespace Session

/-- A remembered result of a frame has an evaluation behind it that depends on no active frame,
enters only remembered frames, and has its failed tests covered. -/
structure Backs (grammar : Grammar) (tokens : Array Token) (session : Session) (frame : Frame)
    (result : Option Tree) (log : Log) : Prop where
  evaluates : Matching.Evaluates grammar tokens [] frame.rule (.rule frame.rule) frame.position
    (.ok (result.map Tree.step)) log
  unrefused : log.refusals = 0
  remembered : forall inner, .entered inner ∈ log -> session.recalled? inner ≠ none
  covered : forall event, event ∈ log -> event.CoveredBy session.furthest

/-- The invariant of a session while some frames are active. -/
structure Sound (grammar : Grammar) (tokens : Array Token) (memoize : Bool) (active : List Frame)
    (session : Session) : Prop where
  unused : memoize = false -> forall frame, session.recalled? frame = none
  inactive : forall frame, frame ∈ active -> session.recalled? frame = none
  backed : forall frame result, session.recalled? frame = some result ->
    Exists fun log => session.Backs grammar tokens frame result log

/-- What an evaluation with some answer and log does to a session. -/
structure Follows {α : Type} (memoize : Bool) (before after : Session)
    (answer : Except GrammarError α) (log : Log) : Prop where
  refused_eq : after.refused = before.refused + log.refusals
  furthest_eq : after.furthest = log.furthest before.furthest
  kept : forall frame result, before.recalled? frame = some result ->
    after.recalled? frame = some result
  known : memoize = true -> log.refusals = 0 -> forall value, answer = .ok value ->
    forall frame, .entered frame ∈ log -> after.recalled? frame ≠ none

theorem sound_empty : Sound grammar tokens memoize [] {} :=
  ⟨fun _ frame => recalled?_empty frame, fun frame member => (List.not_mem_nil member).elim,
    fun frame result found => by rw [recalled?_empty] at found; cases found⟩

/-- A session that differs only by what a log notes is as sound. -/
theorem Sound.noting (sound : session.Sound grammar tokens memoize active)
    (recalled_eq : after.recalled? = session.recalled?)
    (furthest_eq : after.furthest = log.furthest session.furthest) :
    after.Sound grammar tokens memoize active := by
  refine ⟨?_, ?_, ?_⟩
  · rw [recalled_eq]
    exact sound.unused
  · rw [recalled_eq]
    exact sound.inactive
  · intro frame result found
    rw [recalled_eq] at found
    rcases sound.backed frame result found with ⟨entry, backs⟩
    refine ⟨entry, backs.evaluates, backs.unrefused, ?_, ?_⟩
    · rw [recalled_eq]
      exact backs.remembered
    · intro event member
      rw [furthest_eq]
      exact Log.coveredBy_of_coveredBy (backs.covered event member) log

theorem Sound.refuse (sound : session.Sound grammar tokens memoize active) :
    session.refuse.Sound grammar tokens memoize active :=
  have furthest_eq : session.refuse.furthest = Log.furthest session.furthest [] := rfl
  sound.noting rfl furthest_eq

theorem Sound.activate (sound : session.Sound grammar tokens memoize active)
    (forgotten : memoize = true -> session.recalled? frame = none) :
    session.Sound grammar tokens memoize (frame :: active) := by
  refine ⟨sound.unused, ?_, sound.backed⟩
  intro other member
  rcases List.mem_cons.mp member with rfl | member
  · cases used : memoize with
    | true => exact forgotten used
    | false => exact sound.unused used other
  · exact sound.inactive other member

theorem Sound.deactivate (sound : session.Sound grammar tokens memoize (frame :: active)) :
    session.Sound grammar tokens memoize active :=
  ⟨sound.unused, fun other member => sound.inactive other (List.mem_cons_of_mem _ member),
    sound.backed⟩

namespace Follows

variable {α β : Type} {result : Except GrammarError α} {before : Session}

theorem refl (result : Except GrammarError α) (session : Session) :
    Follows memoize session session result [] :=
  ⟨rfl, rfl, fun _ _ found => found, fun _ _ _ _ _ impossible => (List.not_mem_nil impossible).elim⟩

theorem of_ok {other : Except GrammarError β} (follows : Follows memoize before after result log)
    (same : forall value, other = .ok value -> Exists fun value => result = .ok value) :
    Follows memoize before after other log := by
  refine ⟨follows.refused_eq, follows.furthest_eq, follows.kept, ?_⟩
  intro used none value given
  rcases same value given with ⟨value', given'⟩
  exact follows.known used none value' given'

theorem map {change : α -> β} (follows : Follows memoize before after result log) :
    Follows memoize before after (result.map change) log := by
  refine follows.of_ok fun value given => ?_
  cases result with
  | error error => cases given
  | ok value => exact ⟨value, rfl⟩

theorem trans {value : α} {final : Except GrammarError β}
    (follows : Follows memoize before middle (.ok value : Except GrammarError α) log)
    (further : Follows memoize middle after final logAfter) :
    Follows memoize before after final (log ++ logAfter) := by
  refine ⟨?_, ?_, fun frame result found => further.kept _ _ (follows.kept _ _ found), ?_⟩
  · rw [further.refused_eq, follows.refused_eq, Log.refusals_append, Nat.add_assoc]
  · rw [further.furthest_eq, follows.furthest_eq, Log.furthest_append]
  · intro used unrefused value' given frame entered
    rcases Log.refusals_append_eq_zero_iff.mp unrefused with ⟨none, none'⟩
    rcases List.mem_append.mp entered with earlier | later
    · have known := follows.known used none value rfl frame earlier
      rcases Option.ne_none_iff_exists'.mp known with ⟨result, found⟩
      rw [further.kept frame result found]
      exact Option.some_ne_none result
    · exact further.known used none' value' given frame later

end Follows

/-! ## What tests, refused calls and entered calls do to a session -/

theorem recalled?_tested (question : TokenTest) :
    (session.tested tokens rule question position).recalled? = session.recalled? := by
  unfold tested
  split <;> rfl

theorem furthest_tested (question : TokenTest) :
    (session.tested tokens rule question position).furthest =
      (question.log tokens rule position).furthest session.furthest := by
  unfold tested TokenTest.log
  split <;> rfl

theorem tested_follows {α : Type} (result : Except GrammarError α) (question : TokenTest) :
    Follows memoize session (session.tested tokens rule question position) result
      (question.log tokens rule position) := by
  unfold tested TokenTest.log
  split
  · exact .refl result session
  · refine ⟨rfl, rfl, fun _ _ found => found, ?_⟩
    intro _ _ _ _ frame entered
    cases List.mem_singleton.mp entered

theorem refuse_follows {α : Type} (result : Except GrammarError α) :
    Follows memoize session session.refuse result [.refused frame] :=
  ⟨rfl, rfl, fun _ _ found => found, fun _ impossible => by cases impossible⟩

theorem map_step_map (frame : Frame) (step : Option Step) :
    (step.map fun step => Tree.ofRule frame.rule frame.position step.nodes).map Tree.step =
      step.map (Step.under frame) := by
  cases step <;> rfl

/-- A result that is remembered now is backed by the evaluation that led to it. -/
theorem Sound.remember {step : Option Step}
    (sound : after.Sound grammar tokens memoize (frame :: active)) (absent : frame ∉ active)
    (used : memoize = true)
    (evaluates : Matching.Evaluates grammar tokens active frame.rule (.rule frame.rule)
      frame.position (.ok (step.map (Step.under frame))) log)
    (unrefused : log.refusals = 0) (furthest_eq : after.furthest = log.furthest session.furthest)
    (known : forall inner, .entered inner ∈ log -> inner ≠ frame -> after.recalled? inner ≠ none) :
    (after.remember frame (step.map fun step =>
      Tree.ofRule frame.rule frame.position step.nodes)).Sound grammar tokens memoize active := by
  refine ⟨fun unused => (Bool.noConfusion (used.symm.trans unused)), ?_, ?_⟩
  · intro other member
    have different : frame ≠ other := fun same => absent (same ▸ member)
    rw [recalled?_remember, if_neg different]
    exact sound.inactive other (List.mem_cons_of_mem _ member)
  · intro other result found
    rw [recalled?_remember] at found
    split at found
    · rename_i same
      subst same
      cases found
      refine ⟨log, ?_, unrefused,
        fun inner entered => recalled?_remember_ne_none (known inner entered), ?_⟩
      · rw [map_step_map]
        exact evaluates.under_active unrefused fun _ _ => List.not_mem_nil
      · intro event member
        exact furthest_eq ▸ Log.coveredBy_furthest member
    · rcases sound.backed other result found with ⟨entry, backs⟩
      exact ⟨entry, backs.evaluates, backs.unrefused,
        fun inner entered => recalled?_remember_ne_none fun _ => backs.remembered inner entered,
        backs.covered⟩

/-- A result that is remembered now was not remembered before, so nothing else is lost. -/
theorem Follows.remember {α β : Type} {before : Except GrammarError α}
    {result : Except GrammarError β} {tree : Option Tree}
    (follows : Follows memoize session after before log)
    (forgotten : session.recalled? frame = none)
    (known : forall inner, .entered inner ∈ log -> after.recalled? inner ≠ none) :
    Follows memoize session (after.remember frame tree) result (.entered frame :: log) := by
  refine ⟨follows.refused_eq, follows.furthest_eq, ?_, ?_⟩
  · intro other result found
    have different : frame ≠ other := by
      rintro rfl
      rw [forgotten] at found
      cases found
    rw [recalled?_remember, if_neg different]
    exact follows.kept other result found
  · intro _ _ _ _ inner entered
    exact recalled?_remember_ne_none fun different =>
      known inner (Log.entered_of_ne entered different)

/-- A result that is not remembered is an error, or depends on a refused call, or there is no
memory. -/
theorem Follows.forget {α β : Type} {before : Except GrammarError α}
    {result : Except GrammarError β}
    (follows : Follows memoize session after before log)
    (lost : memoize = true -> log.refusals = 0 -> forall value, result ≠ .ok value) :
    Follows memoize session after result (.entered frame :: log) := by
  refine ⟨follows.refused_eq, follows.furthest_eq, follows.kept, ?_⟩
  intro used unrefused value given
  exact absurd given (lost used unrefused value)

/-- Settling a call keeps the invariant and does what the evaluation of the call does. -/
theorem settled_sound_follows
    (forgotten : memoize = true -> session.recalled? frame = none) (absent : frame ∉ active)
    (evaluates : Matching.Evaluates grammar tokens active rule (.rule frame.rule)
      frame.position (answer.map (Option.map (Step.under frame))) (.entered frame :: log))
    (follows : Follows memoize session after answer log)
    (soundAfter : after.Sound grammar tokens memoize (frame :: active)) :
    (settled memoize session frame answer after).Sound grammar tokens memoize active ∧
      Follows memoize session (settled memoize session frame answer after)
        (answer.map (Option.map (Step.under frame))) (.entered frame :: log) := by
  rcases answer with error | step
  · -- After an error nothing is remembered, and nothing has to be.
    exact ⟨soundAfter.deactivate, follows.forget fun _ _ value impossible => by cases impossible⟩
  · have refused_eq := follows.refused_eq
    simp only [settled]
    split
    · rename_i settles
      simp only [Bool.and_eq_true, beq_iff_eq] at settles
      rcases settles with ⟨used, same⟩
      have unrefused : log.refusals = 0 := by omega
      have known := follows.known used unrefused step rfl
      refine ⟨soundAfter.remember absent used evaluates.of_call unrefused follows.furthest_eq ?_,
        follows.remember (forgotten used) known⟩
      exact fun inner entered different => known inner (Log.entered_of_ne entered different)
    · rename_i unsettled
      refine ⟨soundAfter.deactivate, follows.forget fun used unrefused => ?_⟩
      have same : after.refused = session.refused := by omega
      simp only [used, same, beq_self_eq_true, Bool.and_self, not_true_eq_false] at unsettled

end Session

namespace Matching

/-- A run from a sound session answers as the evaluation does and keeps the session sound. -/
theorem Runs.evaluates
    (runs : Runs grammar tokens memoize active rule expression position session answer after trace)
    (sound : session.Sound grammar tokens memoize active) :
    Exists fun log => Evaluates grammar tokens active rule expression position answer log ∧
      after.Sound grammar tokens memoize active ∧
      Session.Follows memoize session after answer log := by
  induction runs with
  | literal =>
    exact ⟨_, .literal, sound.noting (Session.recalled?_tested _) (Session.furthest_tested _),
      Session.tested_follows _ _⟩
  | mock =>
    exact ⟨_, .mock, sound.noting (Session.recalled?_tested _) (Session.furthest_tested _),
      Session.tested_follows _ _⟩
  | undefined missing => exact ⟨[], .undefined missing, sound, .refl _ _⟩
  | recalled _ used found =>
    -- What is remembered enters remembered frames only, and none of these is active.
    rcases sound.backed _ _ found with ⟨entry, backs⟩
    have apart : forall inner, .entered inner ∈ entry -> inner ∉ _ := fun inner entered member =>
      backs.remembered inner entered (sound.inactive inner member)
    refine ⟨entry, (backs.evaluates.under_active backs.unrefused apart).of_call, sound, ?_⟩
    exact ⟨by rw [backs.unrefused]; rfl, (Log.furthest_eq_of_covered backs.covered).symm,
      fun _ _ found => found, fun _ _ _ _ => backs.remembered⟩
  | refused found _ member =>
    exact ⟨_, .refused found member, sound.refuse, Session.refuse_follows _⟩
  | @called active rule name position _ _ _ _ _ found forgotten absent _ inductionHypothesis =>
    rcases inductionHypothesis (sound.activate forgotten) with
      ⟨log, inside, soundAfter, follows⟩
    have evaluates : Evaluates grammar tokens active rule (.rule name) position _ _ :=
      .called found absent inside
    exact ⟨_, evaluates,
      Session.settled_sound_follows forgotten absent evaluates follows soundAfter⟩
  | sequenceNil => exact ⟨[], .sequenceNil, sound, .refl _ _⟩
  | sequenceStops _ stops inductionHypothesis =>
    rcases inductionHypothesis sound with ⟨log, item, soundAfter, follows⟩
    exact ⟨log, .sequenceStops item stops, soundAfter, follows⟩
  | sequenceGoesOn _ _ itemHypothesis restHypothesis =>
    rcases itemHypothesis sound with ⟨log, item, soundMiddle, follows⟩
    rcases restHypothesis soundMiddle with ⟨logAfter, rest, soundAfter, further⟩
    exact ⟨_, .sequenceGoesOn item rest, soundAfter, follows.trans further.map⟩
  | choiceNil => exact ⟨[], .choiceNil, sound, .refl _ _⟩
  | choiceStops _ stops inductionHypothesis =>
    rcases inductionHypothesis sound with ⟨log, first, soundAfter, follows⟩
    exact ⟨log, .choiceStops first stops, soundAfter, follows⟩
  | choiceGoesOn _ _ firstHypothesis restHypothesis =>
    rcases firstHypothesis sound with ⟨log, first, soundMiddle, follows⟩
    rcases restHypothesis soundMiddle with ⟨logAfter, rest, soundAfter, further⟩
    exact ⟨_, .choiceGoesOn first rest, soundAfter, follows.trans further⟩
  | optional _ inductionHypothesis =>
    rcases inductionHypothesis sound with ⟨log, body, soundAfter, follows⟩
    exact ⟨log, .optional body, soundAfter, follows.map⟩
  | zeroOrMoreStops _ stays inductionHypothesis =>
    rcases inductionHypothesis sound with ⟨log, body, soundAfter, follows⟩
    exact ⟨log, .zeroOrMoreStops body stays, soundAfter, follows.map⟩
  | zeroOrMoreGoesOn _ moves _ bodyHypothesis restHypothesis =>
    rcases bodyHypothesis sound with ⟨log, body, soundMiddle, follows⟩
    rcases restHypothesis soundMiddle with ⟨logAfter, rest, soundAfter, further⟩
    exact ⟨_, .zeroOrMoreGoesOn body moves rest, soundAfter, follows.trans further.map⟩
  | oneOrMoreStops _ stays inductionHypothesis =>
    rcases inductionHypothesis sound with ⟨log, body, soundAfter, follows⟩
    exact ⟨log, .oneOrMoreStops body stays, soundAfter, follows.map⟩
  | oneOrMoreGoesOn _ moves _ bodyHypothesis restHypothesis =>
    rcases bodyHypothesis sound with ⟨log, body, soundMiddle, follows⟩
    rcases restHypothesis soundMiddle with ⟨logAfter, rest, soundAfter, further⟩
    exact ⟨_, .oneOrMoreGoesOn body moves rest, soundAfter, follows.trans further.map⟩

/-- After a step of a run the session is sound again, and the step covers its tokens. -/
theorem Runs.resumes {step : Step}
    (runs : Runs grammar tokens memoize active rule expression position session (.ok (some step))
      after trace)
    (sound : session.Sound grammar tokens memoize active) :
    after.Sound grammar tokens memoize active ∧ step.Covers tokens.size position := by
  rcases runs.evaluates sound with ⟨log, evaluates, soundAfter, -⟩
  exact ⟨soundAfter, evaluates.covers step rfl⟩

end Matching
end Packrat
