import Packrat.Proofs.LeftRecursion
import Packrat.Proofs.Outcome

namespace Packrat

/-!
# No frame is met again

The frames of a chain of calls are the ones that are active where its last call is made.  A call
of an active frame is refused and counted, unless its result is remembered or its rule is undefined;
but neither is the case for an active frame.  So when the count stays the same, no chain of calls
comes back to one of its frames.

Without left recursion the count stays zero, in every match and with or without a memory.
-/

variable {grammar : Grammar} {tokens : Array Token} {memoize : Bool} {active : List Frame}
  {rule : String} {expression : Expression} {position : Nat} {session after : Session}
  {answer : Answer} {trace : Trace} {frame : Frame}

/-! ## Fresh traces -/

namespace Trace

/-- No chain of calls meets a frame twice or an active one. -/
structure Fresh (active : List Frame) (trace : Trace) : Prop where
  nodup : forall chain, chain ∈ trace.chains -> chain.Nodup
  inactive : forall chain, chain ∈ trace.chains -> forall frame, frame ∈ chain -> frame ∉ active

namespace Fresh

variable {first rest inside further : Trace}

theorem nothing : nothing.Fresh active := by
  constructor <;> simp [chains]

theorem test (place : Nat) : (test place).Fresh active := by
  constructor <;> simp [chains]

theorem returned (absent : frame ∉ active) : (returned frame).Fresh active := by
  constructor
  · intro chain listed
    cases List.mem_singleton.mp listed
    exact List.pairwise_singleton _ _
  · intro chain listed other member
    cases List.mem_singleton.mp listed
    cases List.mem_singleton.mp member
    exact absent

/-- Inside a call its frame is active, so that the chains there do not meet it. -/
theorem entered (absent : frame ∉ active) (fresh : inside.Fresh (frame :: active)) :
    (entered frame inside).Fresh active := by
  constructor
  · intro chain listed
    rcases List.mem_cons.mp listed with rfl | listed
    · exact List.pairwise_singleton _ _
    · rcases List.mem_map.mp listed with ⟨inner, within, rfl⟩
      refine List.nodup_cons.mpr ⟨fun member => ?_, fresh.nodup inner within⟩
      exact fresh.inactive inner within frame member List.mem_cons_self
  · intro chain listed other member
    rcases List.mem_cons.mp listed with rfl | listed
    · cases List.mem_singleton.mp member
      exact absent
    · rcases List.mem_map.mp listed with ⟨inner, within, rfl⟩
      rcases List.mem_cons.mp member with rfl | member
      · exact absent
      · exact fun enclosing =>
          fresh.inactive inner within other member (List.mem_cons_of_mem _ enclosing)

theorem both (first_fresh : first.Fresh active) (rest_fresh : rest.Fresh active) :
    (both first rest).Fresh active := by
  constructor
  · intro chain listed
    exact (List.mem_append.mp listed).elim (first_fresh.nodup chain) (rest_fresh.nodup chain)
  · intro chain listed
    exact (List.mem_append.mp listed).elim (first_fresh.inactive chain) (rest_fresh.inactive chain)

theorem round (place : Nat) (inside_fresh : inside.Fresh active)
    (further_fresh : further.Fresh active) : (round place inside further).Fresh active :=
  have pair := both inside_fresh further_fresh
  ⟨pair.nodup, pair.inactive⟩

end Fresh
end Trace

/-! ## Runs without a refused call -/

namespace Session

theorem refused_settled (memoize : Bool) (before : Session) (frame : Frame) (answer : Answer)
    (after : Session) : (settled memoize before frame answer after).refused = after.refused := by
  rcases answer with error | step
  · rfl
  · simp only [settled]
    split <;> rfl

end Session

namespace Matching

theorem Runs.refused_le
    (runs : Runs grammar tokens memoize active rule expression position session answer after trace)
    (sound : session.Sound grammar tokens memoize active) : session.refused ≤ after.refused := by
  rcases runs.evaluates sound with ⟨log, -, -, follows⟩
  exact follows.refused_eq ▸ Nat.le_add_right _ _

/-- When the first part of a run and the rest refuse nothing together, neither of them does, and
the rest begins with a sound session. -/
theorem Runs.unrefused_parts {middle : Session} {further : Answer} {items : Expression}
    {next : Nat} {traceAfter : Trace}
    (runs : Runs grammar tokens memoize active rule expression position session answer middle trace)
    (rest : Runs grammar tokens memoize active rule items next middle further after traceAfter)
    (sound : session.Sound grammar tokens memoize active)
    (unrefused : after.refused = session.refused) :
    middle.refused = session.refused ∧ middle.Sound grammar tokens memoize active ∧
      after.refused = middle.refused := by
  rcases runs.evaluates sound with ⟨-, -, soundMiddle, -⟩
  have early := runs.refused_le sound
  have late := rest.refused_le soundMiddle
  exact ⟨by omega, soundMiddle, by omega⟩

/-- A run that refuses no call meets no active frame. -/
theorem Runs.fresh
    (runs : Runs grammar tokens memoize active rule expression position session answer after trace)
    (sound : session.Sound grammar tokens memoize active)
    (defined : forall frame, frame ∈ active -> grammar.find? frame.rule ≠ none)
    (unrefused : after.refused = session.refused) : trace.Fresh active := by
  induction runs with
  | literal => exact .test _
  | mock => exact .test _
  | undefined missing => exact .returned fun member => defined _ member missing
  | recalled _ _ recalled =>
    refine .returned fun member => ?_
    rw [sound.inactive _ member] at recalled
    cases recalled
  | @refused _ _ _ _ session => exact absurd unrefused (Nat.succ_ne_self session.refused)
  | called found forgotten absent _ inductionHypothesis =>
    rw [Session.refused_settled] at unrefused
    refine .entered absent (inductionHypothesis (sound.activate forgotten) ?_ unrefused)
    intro frame member
    rcases List.mem_cons.mp member with rfl | member
    · rw [found]
      exact Option.some_ne_none _
    · exact defined frame member
  | sequenceNil => exact .nothing
  | sequenceStops _ _ inductionHypothesis => exact inductionHypothesis sound defined unrefused
  | sequenceGoesOn item items itemHypothesis restHypothesis =>
    rcases item.unrefused_parts items sound unrefused with ⟨early, soundMiddle, late⟩
    exact .both (itemHypothesis sound defined early) (restHypothesis soundMiddle defined late)
  | choiceNil => exact .nothing
  | choiceStops _ _ inductionHypothesis => exact inductionHypothesis sound defined unrefused
  | choiceGoesOn first rest firstHypothesis restHypothesis =>
    rcases first.unrefused_parts rest sound unrefused with ⟨early, soundMiddle, late⟩
    exact .both (firstHypothesis sound defined early) (restHypothesis soundMiddle defined late)
  | optional _ inductionHypothesis => exact inductionHypothesis sound defined unrefused
  | zeroOrMoreStops _ _ inductionHypothesis =>
    exact .round _ (inductionHypothesis sound defined unrefused) .nothing
  | zeroOrMoreGoesOn body _ more bodyHypothesis restHypothesis =>
    rcases body.unrefused_parts more sound unrefused with ⟨early, soundMiddle, late⟩
    exact .round _ (bodyHypothesis sound defined early) (restHypothesis soundMiddle defined late)
  | oneOrMoreStops _ _ inductionHypothesis =>
    exact .round _ (inductionHypothesis sound defined unrefused) .nothing
  | oneOrMoreGoesOn body _ more bodyHypothesis restHypothesis =>
    rcases body.unrefused_parts more sound unrefused with ⟨early, soundMiddle, late⟩
    exact .round _ (bodyHypothesis sound defined early) (restHypothesis soundMiddle defined late)

/-- Without left recursion a run from a fresh session refuses nothing. -/
theorem Runs.refused_eq_zero (acyclic : grammar.LeftAcyclic)
    (runs : Runs grammar tokens memoize [] rule expression position {} answer after trace) :
    after.refused = 0 := by
  rcases runs.evaluates Session.sound_empty with ⟨log, evaluates, -, follows⟩
  rw [follows.refused_eq, evaluates.unrefused acyclic .start]

end Matching

/-! ## Matchers -/

/-- Where the search for a left recursion finds none, a match meets no frame that is active: none of
its chains of calls has a frame twice, and it refuses no call.  So the count of refused calls that
the matcher keeps is still zero afterwards. -/
theorem Matcher.matchRule_meets_no_active_frame (matcher : Matcher) (rule : String) (start : Nat)
    (searched : matcher.grammar.findLeftRecursion = none) :
    (Exists fun result => Exists fun after => Exists fun trace =>
      Matching.Runs matcher.grammar matcher.tokens matcher.memoize [] rule (.rule rule) start {}
          (result.map (Option.map Tree.step)) after trace ∧
        (matcher.matchRule rule start).1 = report rule start after.furthest result ∧
        (forall chain, chain ∈ trace.chains -> chain.Nodup) ∧
        after.refused = 0) ∧
      (matcher.session.refused = 0 -> (matcher.matchRule rule start).2.session.refused = 0) := by
  rcases matcher.matchRule_runs rule start with
    ⟨result, after, trace, kept, runs, reports, keeps⟩
  have unrefused : after.refused = 0 :=
    runs.refused_eq_zero (Grammar.leftAcyclic_of_find searched)
  have undefined_inactive : forall frame, frame ∈ ([] : List Frame) ->
      matcher.grammar.find? frame.rule ≠ none := fun _ member => absurd member List.not_mem_nil
  have fresh := runs.fresh Session.sound_empty undefined_inactive unrefused
  refine ⟨⟨result, after, trace, runs, by rw [reports], fresh.nodup, unrefused⟩, fun before => ?_⟩
  rw [reports]
  rcases keeps with rfl | ⟨rfl, -⟩
  · exact unrefused
  · exact before

/-- A rule that begins with a nullable one and comes back to itself behind a token. -/
theorem Matcher.matchRule_meets_no_active_frame_nullable :
    let matcher : Matcher :=
      { grammar := ⟨[⟨"a", .sequence [.rule "b",
            .choice [.sequence [.word "x", .rule "a"], .word "y"]], false⟩,
          ⟨"b", .optional (.rule "c"), false⟩, ⟨"c", .word "z", false⟩], 0⟩
        tokens := #[⟨.keyword, "x", default, default⟩, ⟨.keyword, "y", default, default⟩] }
    matcher.grammar.findLeftRecursion = none ∧
      (matcher.matchRule "a" 0).2.session.refused = 0 := by
  intro matcher
  have searched : matcher.grammar.findLeftRecursion = none := by decide
  exact ⟨searched, (matcher.matchRule_meets_no_active_frame "a" 0 searched).2 rfl⟩

end Packrat
