import Packrat.Proofs.Outcome

namespace Packrat

/-!
# Matching terminates

A run is a finite object and knows no bound on its depth or on its rounds.  For every grammar,
left-recursive or not, and every place, also beyond the tokens, there is exactly one run, and what
a matcher reports is what this run comes to.

The trace of the run shows why it ends.  No frame is entered inside itself, places never go back
in a chain of calls, and every round of a repetition begins strictly after the round before it.
-/

variable {grammar : Grammar} {tokens : Array Token} {memoize : Bool} {active : List Frame}
  {rule : String} {expression : Expression} {position : Nat} {session after : Session}
  {answer : Answer} {trace : Trace} {frame : Frame}

/-! ## Orderly traces -/

namespace Trace

/-- What keeps a run finite, from a place on and inside some active frames. -/
structure Orderly (active : List Frame) (position : Nat) (trace : Trace) : Prop where
  nests_nodup : forall nest, nest ∈ trace.nests -> nest.Nodup
  nests_inactive : forall nest, nest ∈ trace.nests -> forall frame, frame ∈ nest -> frame ∉ active
  chains_ascend : forall chain, chain ∈ trace.chains ->
    chain.Pairwise fun outer inner => outer.position ≤ inner.position
  chains_from : forall chain, chain ∈ trace.chains ->
    forall frame, frame ∈ chain -> position ≤ frame.position
  loops_advance : forall loop, loop ∈ trace.loops -> loop.Pairwise (· < ·)
  rounds_advance : trace.rounds.Pairwise (· < ·)
  rounds_from : forall place, place ∈ trace.rounds -> position ≤ place

namespace Orderly

variable {first rest inside further : Trace} {next : Nat}

theorem nothing : nothing.Orderly active position := by
  constructor <;> simp [nests, chains, loops, rounds]

theorem test (place : Nat) : (test place).Orderly active position := by
  constructor <;> simp [nests, chains, loops, rounds]

theorem returned (rule : String) :
    (returned ⟨rule, position⟩).Orderly active position := by
  constructor <;> simp [nests, chains, loops, rounds]

theorem later (orderly : trace.Orderly active next) (forward : position ≤ next) :
    trace.Orderly active position :=
  ⟨orderly.nests_nodup, orderly.nests_inactive, orderly.chains_ascend,
    fun chain listed frame member =>
      Nat.le_trans forward (orderly.chains_from chain listed frame member),
    orderly.loops_advance, orderly.rounds_advance,
    fun place member => Nat.le_trans forward (orderly.rounds_from place member)⟩

/-- What happens inside a call is apart from its frame, because the frame is active there. -/
theorem entered (absent : ⟨rule, position⟩ ∉ active)
    (orderly : inside.Orderly (⟨rule, position⟩ :: active) position) :
    (entered ⟨rule, position⟩ inside).Orderly active position := by
  refine ⟨?_, ?_, ?_, ?_, orderly.loops_advance, List.Pairwise.nil, fun _ member =>
    (List.not_mem_nil member).elim⟩
  · intro nest listed
    rcases List.mem_cons.mp listed with rfl | listed
    · exact List.nodup_cons.mpr ⟨List.not_mem_nil, List.nodup_nil⟩
    · rcases List.mem_map.mp listed with ⟨inner, within, rfl⟩
      refine List.nodup_cons.mpr ⟨fun member => ?_, orderly.nests_nodup inner within⟩
      exact orderly.nests_inactive inner within _ member List.mem_cons_self
  · intro nest listed frame member
    rcases List.mem_cons.mp listed with rfl | listed
    · cases List.mem_singleton.mp member
      exact absent
    · rcases List.mem_map.mp listed with ⟨inner, within, rfl⟩
      rcases List.mem_cons.mp member with rfl | member
      · exact absent
      · exact fun enclosing => orderly.nests_inactive inner within frame member
          (List.mem_cons_of_mem _ enclosing)
  · intro chain listed
    rcases List.mem_cons.mp listed with rfl | listed
    · exact List.pairwise_singleton _ _
    · rcases List.mem_map.mp listed with ⟨inner, within, rfl⟩
      exact List.pairwise_cons.mpr
        ⟨orderly.chains_from inner within, orderly.chains_ascend inner within⟩
  · intro chain listed frame member
    rcases List.mem_cons.mp listed with rfl | listed
    · cases List.mem_singleton.mp member
      exact Nat.le_refl _
    · rcases List.mem_map.mp listed with ⟨inner, within, rfl⟩
      rcases List.mem_cons.mp member with rfl | member
      · exact Nat.le_refl _
      · exact orderly.chains_from inner within frame member

theorem both (first_orderly : first.Orderly active position)
    (rest_orderly : rest.Orderly active position) : (both first rest).Orderly active position := by
  refine ⟨?_, ?_, ?_, ?_, ?_, List.Pairwise.nil, fun _ member => (List.not_mem_nil member).elim⟩
  · intro nest listed
    exact (List.mem_append.mp listed).elim (first_orderly.nests_nodup nest)
      (rest_orderly.nests_nodup nest)
  · intro nest listed
    exact (List.mem_append.mp listed).elim (first_orderly.nests_inactive nest)
      (rest_orderly.nests_inactive nest)
  · intro chain listed
    exact (List.mem_append.mp listed).elim (first_orderly.chains_ascend chain)
      (rest_orderly.chains_ascend chain)
  · intro chain listed
    exact (List.mem_append.mp listed).elim (first_orderly.chains_from chain)
      (rest_orderly.chains_from chain)
  · intro loop listed
    exact (List.mem_append.mp listed).elim (first_orderly.loops_advance loop)
      (rest_orderly.loops_advance loop)

/-- A round is in order when the rounds after it begin strictly later. -/
theorem round (inside_orderly : inside.Orderly active position)
    (further_orderly : further.Orderly active next) (forward : position ≤ next)
    (advances : further.rounds ≠ [] -> position < next) :
    (round position inside further).Orderly active position := by
  have pair := both inside_orderly (further_orderly.later forward)
  have later : forall place, place ∈ further.rounds -> position < place := by
    intro place member
    have bound := further_orderly.rounds_from place member
    have strict := advances (List.ne_nil_of_mem member)
    omega
  have rounds_advance : (position :: further.rounds).Pairwise (· < ·) :=
    List.pairwise_cons.mpr ⟨later, further_orderly.rounds_advance⟩
  refine ⟨pair.nests_nodup, pair.nests_inactive, pair.chains_ascend, pair.chains_from, ?_,
    rounds_advance, ?_⟩
  · intro loop listed
    rcases List.mem_cons.mp listed with rfl | listed
    · exact rounds_advance
    · exact pair.loops_advance loop listed
  · intro place member
    rcases List.mem_cons.mp member with rfl | member
    · exact Nat.le_refl _
    · exact Nat.le_of_lt (later place member)

end Orderly
end Trace

namespace Matching

/-- The trace of a run from a sound session is orderly. -/
theorem Runs.orderly
    (runs : Runs grammar tokens memoize active rule expression position session answer after trace)
    (sound : session.Sound grammar tokens memoize active) : trace.Orderly active position := by
  induction runs with
  | literal => exact .test _
  | mock => exact .test _
  | undefined => exact .returned _
  | recalled => exact .returned _
  | refused => exact .returned _
  | called _ forgotten absent _ inductionHypothesis =>
    exact .entered absent (inductionHypothesis (sound.activate forgotten))
  | sequenceNil => exact .nothing
  | sequenceStops _ _ inductionHypothesis => exact inductionHypothesis sound
  | sequenceGoesOn item _ itemHypothesis restHypothesis =>
    rcases item.resumes sound with ⟨soundMiddle, covers⟩
    exact .both (itemHypothesis sound) ((restHypothesis soundMiddle).later covers.le_next)
  | choiceNil => exact .nothing
  | choiceStops _ _ inductionHypothesis => exact inductionHypothesis sound
  | choiceGoesOn first _ firstHypothesis restHypothesis =>
    rcases first.evaluates sound with ⟨-, -, soundMiddle, -⟩
    exact .both (firstHypothesis sound) (restHypothesis soundMiddle)
  | optional _ inductionHypothesis => exact inductionHypothesis sound
  | zeroOrMoreStops _ _ inductionHypothesis =>
    exact .round (inductionHypothesis sound) .nothing (Nat.le_refl _) fun some => absurd rfl some
  | zeroOrMoreGoesOn body moves _ bodyHypothesis restHypothesis =>
    rcases body.resumes sound with ⟨soundMiddle, covers⟩
    have forward := covers.le_next
    exact .round (bodyHypothesis sound) (restHypothesis soundMiddle) forward fun _ => by omega
  | oneOrMoreStops _ _ inductionHypothesis =>
    exact .round (inductionHypothesis sound) .nothing (Nat.le_refl _) fun some => absurd rfl some
  | oneOrMoreGoesOn body moves _ bodyHypothesis restHypothesis =>
    rcases body.resumes sound with ⟨soundMiddle, covers⟩
    have forward := covers.le_next
    exact .round (bodyHypothesis sound) (restHypothesis soundMiddle) forward fun _ => by omega

/-! ## One run for every match -/

/-- There is no choice in a run. -/
theorem Runs.unique {other : Answer} {otherAfter : Session} {otherTrace : Trace}
    (runs : Runs grammar tokens memoize active rule expression position session answer after trace)
    (again : Runs grammar tokens memoize active rule expression position session other otherAfter
      otherTrace) :
    answer = other ∧ after = otherAfter ∧ trace = otherTrace := by
  induction runs generalizing other otherAfter otherTrace with
  | literal => cases again; exact ⟨rfl, rfl, rfl⟩
  | mock => cases again; exact ⟨rfl, rfl, rfl⟩
  | undefined missing =>
    cases again with
    | undefined => exact ⟨rfl, rfl, rfl⟩
    | recalled found => rw [missing] at found; cases found
    | refused found => rw [missing] at found; cases found
    | called found => rw [missing] at found; cases found
  | recalled found used recalled =>
    cases again with
    | undefined missing => rw [missing] at found; cases found
    | recalled _ _ recalled' =>
      cases recalled.symm.trans recalled'
      exact ⟨rfl, rfl, rfl⟩
    | refused _ forgotten => rw [forgotten used] at recalled; cases recalled
    | called _ forgotten => rw [forgotten used] at recalled; cases recalled
  | refused found forgotten member =>
    cases again with
    | undefined missing => rw [missing] at found; cases found
    | recalled _ used recalled => rw [forgotten used] at recalled; cases recalled
    | refused => exact ⟨rfl, rfl, rfl⟩
    | called _ _ absent => exact absurd member absent
  | called found forgotten absent _ inductionHypothesis =>
    cases again with
    | undefined missing => rw [missing] at found; cases found
    | recalled _ used recalled => rw [forgotten used] at recalled; cases recalled
    | refused _ _ member => exact absurd member absent
    | called found' _ _ inside' =>
      cases found.symm.trans found'
      rcases inductionHypothesis inside' with ⟨rfl, rfl, rfl⟩
      exact ⟨rfl, rfl, rfl⟩
  | sequenceNil => cases again; exact ⟨rfl, rfl, rfl⟩
  | sequenceStops _ stops inductionHypothesis =>
    cases again with
    | sequenceStops item' => exact inductionHypothesis item'
    | sequenceGoesOn item' => exact absurd (inductionHypothesis item').1 (stops _)
  | sequenceGoesOn _ _ itemHypothesis restHypothesis =>
    cases again with
    | sequenceStops item' stops => exact absurd (itemHypothesis item').1.symm (stops _)
    | sequenceGoesOn item' rest' =>
      rcases itemHypothesis item' with ⟨same, rfl, rfl⟩
      cases same
      rcases restHypothesis rest' with ⟨rfl, rfl, rfl⟩
      exact ⟨rfl, rfl, rfl⟩
  | choiceNil => cases again; exact ⟨rfl, rfl, rfl⟩
  | choiceStops _ stops inductionHypothesis =>
    cases again with
    | choiceStops first' => exact inductionHypothesis first'
    | choiceGoesOn first' => exact absurd (inductionHypothesis first').1 stops
  | choiceGoesOn _ _ firstHypothesis restHypothesis =>
    cases again with
    | choiceStops first' stops => exact absurd (firstHypothesis first').1.symm stops
    | choiceGoesOn first' rest' =>
      rcases firstHypothesis first' with ⟨-, rfl, rfl⟩
      rcases restHypothesis rest' with ⟨rfl, rfl, rfl⟩
      exact ⟨rfl, rfl, rfl⟩
  | optional _ inductionHypothesis =>
    cases again with
    | optional body' =>
      rcases inductionHypothesis body' with ⟨rfl, rfl, rfl⟩
      exact ⟨rfl, rfl, rfl⟩
  | zeroOrMoreStops _ stays inductionHypothesis =>
    cases again with
    | zeroOrMoreStops body' =>
      rcases inductionHypothesis body' with ⟨rfl, rfl, rfl⟩
      exact ⟨rfl, rfl, rfl⟩
    | zeroOrMoreGoesOn body' moves =>
      exact absurd (stays _ (inductionHypothesis body').1) moves
  | zeroOrMoreGoesOn _ moves _ bodyHypothesis restHypothesis =>
    cases again with
    | zeroOrMoreStops body' stays =>
      exact absurd (stays _ (bodyHypothesis body').1.symm) moves
    | zeroOrMoreGoesOn body' _ rest' =>
      rcases bodyHypothesis body' with ⟨same, rfl, rfl⟩
      cases same
      rcases restHypothesis rest' with ⟨rfl, rfl, rfl⟩
      exact ⟨rfl, rfl, rfl⟩
  | oneOrMoreStops _ stays inductionHypothesis =>
    cases again with
    | oneOrMoreStops body' =>
      rcases inductionHypothesis body' with ⟨rfl, rfl, rfl⟩
      exact ⟨rfl, rfl, rfl⟩
    | oneOrMoreGoesOn body' moves =>
      exact absurd (stays _ (inductionHypothesis body').1) moves
  | oneOrMoreGoesOn _ moves _ bodyHypothesis restHypothesis =>
    cases again with
    | oneOrMoreStops body' stays =>
      exact absurd (stays _ (bodyHypothesis body').1.symm) moves
    | oneOrMoreGoesOn body' _ rest' =>
      rcases bodyHypothesis body' with ⟨same, rfl, rfl⟩
      cases same
      rcases restHypothesis rest' with ⟨rfl, rfl, rfl⟩
      exact ⟨rfl, rfl, rfl⟩

end Matching

/-- Every match comes to an end by itself: there is exactly one run of its rule, with or without a
memory, its trace is orderly, and the matcher reports what it comes to.  The same holds of a match
of the whole input, which runs from its beginning. -/
theorem Matcher.match_terminates (matcher : Matcher) (rule : String) (start : Nat) :
    (Exists fun result => Exists fun after => Exists fun trace =>
      Matching.Runs matcher.grammar matcher.tokens matcher.memoize [] rule (.rule rule) start {}
          (result.map (Option.map Tree.step)) after trace ∧
        (forall other otherAfter otherTrace,
          Matching.Runs matcher.grammar matcher.tokens matcher.memoize [] rule (.rule rule) start
            {} other otherAfter otherTrace -> otherTrace = trace) ∧
        trace.Orderly [] start ∧
        (matcher.matchRule rule start).1 = report rule start after.furthest result) ∧
    Exists fun result => Exists fun after => Exists fun trace =>
      Matching.Runs matcher.grammar matcher.tokens matcher.memoize [] rule (.rule rule) 0 {}
          (result.map (Option.map Tree.step)) after trace ∧
        (forall other otherAfter otherTrace,
          Matching.Runs matcher.grammar matcher.tokens matcher.memoize [] rule (.rule rule) 0
            {} other otherAfter otherTrace -> otherTrace = trace) ∧
        trace.Orderly [] 0 ∧
        (matcher.matchEntirely rule).1 =
          reportEntirely matcher.tokens rule after.furthest result := by
  constructor
  · rcases matcher.matchRule_runs rule start with ⟨result, after, trace, kept, runs, reports, -⟩
    refine ⟨result, after, trace, runs, ?_, runs.orderly Session.sound_empty, by rw [reports]⟩
    intro other otherAfter otherTrace again
    exact (again.unique runs).2.2
  · rcases matcher.matchEntirely_runs rule with ⟨result, after, trace, runs, reports⟩
    refine ⟨result, after, trace, runs, ?_, runs.orderly Session.sound_empty, reports⟩
    intro other otherAfter otherTrace again
    exact (again.unique runs).2.2

end Packrat
