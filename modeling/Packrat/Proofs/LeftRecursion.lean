import Mathlib.Data.List.Nodup
import Mathlib.Logic.Relation
import Packrat.Proofs.Nullability

namespace Packrat

/-!
# Without left recursion no call is refused

The search for a left recursion lists a rule only after everything that it calls on the left, so
the listed rules cannot come back to themselves.  The bound on its depth never cuts it short: the
names of a path are different rules of the grammar.

A call is refused when its frame is active.  All active frames at the place of the call reach it by
calls on the left, because whatever was matched since then was nullable.  So a refused call comes
back to itself.
-/

open Relation (TransGen ReflTransGen)

namespace Grammar

/-! ## Calls on the left -/

/-- A rule may enter another one before it has matched a token. -/
def CallsOnLeft (grammar : Grammar) (name called : String) : Prop :=
  Exists fun target => grammar.find? name = some target ∧
    called ∈ target.effective.leftMentions grammar.nullableRules

/-- No rule can come back to itself by calls on the left.  Undefined rules call nothing, so that
they are on no cycle. -/
def LeftAcyclic (grammar : Grammar) : Prop :=
  forall name, ¬ TransGen grammar.CallsOnLeft name name

theorem mem_leftCallsOf_iff {grammar : Grammar} {name called : String} :
    called ∈ grammar.leftCallsOf grammar.nullableRules name <->
      grammar.CallsOnLeft name called := by
  unfold leftCallsOf CallsOnLeft
  cases found : grammar.find? name with
  | none => simp
  | some target => simp [Expression.leftCalls, Expression.mem_addNames]

theorem callsOnLeft_eq (grammar : Grammar) :
    grammar.CallsOnLeft =
      fun name called => called ∈ grammar.leftCallsOf grammar.nullableRules name := by
  funext name called
  exact propext mem_leftCallsOf_iff.symm

/-! ## What a search establishes -/

/-- Names in an order in which each comes after everything that it calls. -/
inductive Settled (calls : String -> List String) : List String -> Prop
  | nil : Settled calls []
  | snoc {done : List String} {name : String} :
      Settled calls done -> calls name ⊆ done -> Settled calls (done ++ [name])

variable {calls : String -> List String} {done after sought names path : List String}
  {name other : String} {depth : Nat}

namespace Settled

theorem calls_subset (settled : Settled calls done) (member : name ∈ done) :
    calls name ⊆ done := by
  induction settled with
  | nil => cases member
  | snoc _ called inductionHypothesis =>
    rcases List.mem_append.mp member with earlier | last
    · exact fun other within => List.mem_append_left _ (inductionHypothesis earlier within)
    · cases List.mem_singleton.mp last
      exact fun other within => List.mem_append_left _ (called within)

theorem mem_of_reaches (settled : Settled calls done) (member : name ∈ done)
    (reaches : ReflTransGen (fun name called => called ∈ calls name) name other) :
    other ∈ done := by
  induction reaches with
  | refl => exact member
  | tail _ call inductionHypothesis => exact settled.calls_subset inductionHypothesis call

theorem acyclic (settled : Settled calls done) (member : name ∈ done) :
    ¬ TransGen (fun name called => called ∈ calls name) name name := by
  induction settled with
  | nil => cases member
  | @snoc done last settled called inductionHypothesis =>
    by_cases earlier : name ∈ done
    · exact inductionHypothesis earlier
    · -- A way back to the last name begins with a call of it and never leaves the earlier ones.
      intro cycle
      have same : name = last :=
        List.mem_singleton.mp ((List.mem_append.mp member).resolve_left earlier)
      subst same
      rcases TransGen.head'_iff.mp cycle with ⟨first, call, back⟩
      exact earlier (settled.mem_of_reaches (called call) back)

end Settled

/-- A search keeps what is settled and adds names until the sought ones are among them. -/
structure Settles (calls : String -> List String) (sought done after : List String) : Prop where
  settled : Settled calls after
  grows : done ⊆ after
  listed : sought ⊆ after

/-- Searches one after the other settle all their names. -/
theorem foldlM_settles {search : List String -> String -> Except (List String) (List String)}
    (each : forall name, name ∈ names -> forall done after, Settled calls done ->
      search done name = .ok after -> Settles calls [name] done after)
    (settled : Settled calls done) (found : names.foldlM search done = .ok after) :
    Settles calls names done after := by
  induction names generalizing done with
  | nil =>
    cases found
    exact ⟨settled, fun _ => id, List.nil_subset _⟩
  | cons name names inductionHypothesis =>
    rw [List.foldlM_cons] at found
    cases first : search done name with
    | error cycle =>
      rw [first] at found
      cases found
    | ok middle =>
      rw [first] at found
      have one := each name List.mem_cons_self done middle settled first
      have rest := inductionHypothesis
        (fun other member => each other (List.mem_cons_of_mem _ member)) one.settled found
      refine ⟨rest.settled, fun other member => rest.grows (one.grows member), ?_⟩
      exact List.cons_subset.mpr ⟨rest.grows (one.listed List.mem_cons_self), rest.listed⟩

/-- The names of a path are different rules, and with the depth that is left there are more than
all rules. -/
structure Path (names : List String) (depth : Nat) (path : List String) : Prop where
  nodup : path.Nodup
  subset : path ⊆ names
  enough : names.length < path.length + depth

theorem Path.pos (along : Path names depth path) : 0 < depth := by
  have short := along.nodup.length_le_of_subset along.subset
  have := along.enough
  omega

theorem Path.extend (along : Path names (depth + 1) path) (fresh : name ∉ path)
    (known : name ∈ names) : Path names depth (path ++ [name]) := by
  refine ⟨?_, ?_, ?_⟩
  · rw [← List.concat_eq_append]
    exact List.Nodup.concat fresh along.nodup
  · exact List.append_subset.mpr ⟨along.subset, List.cons_subset.mpr ⟨known, List.nil_subset _⟩⟩
  · have := along.enough
    rw [List.length_append, List.length_singleton]
    omega

theorem search_settles (defined : forall name called, called ∈ calls name -> name ∈ names)
    (along : Path names depth path) (settled : Settled calls done)
    (found : search calls depth path done name = .ok after) :
    Settles calls [name] done after := by
  induction depth generalizing path done name after with
  | zero => exact absurd along.pos (Nat.lt_irrefl 0)
  | succ depth inductionHypothesis =>
    rw [search] at found
    split at found
    · cases found
    · rename_i fresh
      rw [List.contains_iff_mem] at fresh
      split at found
      · rename_i before
        cases found
        exact ⟨settled, fun _ => id,
          List.cons_subset.mpr ⟨List.contains_iff_mem.mp before, List.nil_subset _⟩⟩
      · cases below : (calls name).foldlM (search calls depth (path ++ [name])) done with
        | error cycle =>
          rw [below] at found
          cases found
        | ok middle =>
          rw [below] at found
          cases found
          -- A name that has calls is a rule, so it may stand on the path.
          have inside : Settles calls (calls name) done middle :=
            foldlM_settles (fun called member done after settled found =>
              inductionHypothesis (along.extend fresh (defined name called member)) settled found)
              settled below
          refine ⟨.snoc inside.settled inside.listed, ?_, ?_⟩
          · exact fun other member => List.mem_append_left _ (inside.grows member)
          · exact List.subset_append_right _ _

/-- Where the search finds no cycle, there is no left recursion. -/
theorem leftAcyclic_of_find {grammar : Grammar} (searched : grammar.findLeftRecursion = none) :
    grammar.LeftAcyclic := by
  have defined : forall name called,
      called ∈ grammar.leftCallsOf grammar.nullableRules name -> name ∈ grammar.ruleNames := by
    intro name called call
    rcases mem_leftCallsOf_iff.mp call with ⟨target, found, -⟩
    exact List.mem_map.mpr ⟨target, mem_rules_of_find? found⟩
  have along : Path grammar.ruleNames (grammar.size + 2) [] := by
    refine ⟨List.nodup_nil, List.nil_subset _, ?_⟩
    rw [ruleNames, List.length_map, size, List.length_nil]
    omega
  unfold findLeftRecursion at searched
  simp only at searched
  split at searched
  · cases searched
  · rename_i done found
    have settles := foldlM_settles
      (fun name _ done after settled found => search_settles defined along settled found)
      .nil found
    intro name cycle
    rw [callsOnLeft_eq] at cycle
    rcases TransGen.head'_iff.mp cycle with ⟨called, call, -⟩
    exact settles.settled.acyclic (settles.listed (defined name called call)) cycle

theorem checkLeftRecursion_eq_ok_iff {grammar : Grammar} :
    grammar.checkLeftRecursion = .ok () <-> grammar.findLeftRecursion = none := by
  unfold checkLeftRecursion
  cases grammar.findLeftRecursion with
  | none => exact iff_of_true rfl rfl
  | some cycle => exact iff_of_false nofun nofun

/-- The check for left recursion is sound. -/
theorem leftAcyclic_of_check {grammar : Grammar} (checked : grammar.checkLeftRecursion = .ok ()) :
    grammar.LeftAcyclic :=
  leftAcyclic_of_find (checkLeftRecursion_eq_ok_iff.mp checked)

end Grammar

/-! ## No call is refused -/

namespace Matching

/-- No active frame is beyond a place, and the frames there reach every one of some rules by calls
on the left. -/
structure Leads (grammar : Grammar) (active : List Frame) (position : Nat)
    (mentions : List String) : Prop where
  behind : forall frame, frame ∈ active -> frame.position ≤ position
  reaches : forall name, ⟨name, position⟩ ∈ active -> forall called, called ∈ mentions ->
    TransGen grammar.CallsOnLeft name called

variable {grammar : Grammar} {tokens : Array Token} {active : List Frame} {rule name : String}
  {expression : Expression} {position next : Nat} {answer : Answer} {log : Log}
  {mentions others : List String}

namespace Leads

theorem start : Leads grammar [] position mentions :=
  ⟨fun _ impossible => (List.not_mem_nil impossible).elim,
    fun _ impossible => (List.not_mem_nil impossible).elim⟩

theorem restrict (leads : Leads grammar active position mentions) (subset : others ⊆ mentions) :
    Leads grammar active position others :=
  ⟨leads.behind, fun name member called within =>
    leads.reaches name member called (subset within)⟩

/-- No frame is active beyond the place, so none there reaches anything. -/
theorem onward (leads : Leads grammar active position mentions) (moves : position < next) :
    Leads grammar active next others := by
  refine ⟨fun frame member => ?_, fun name member => ?_⟩
  · exact Nat.le_trans (leads.behind frame member) (Nat.le_of_lt moves)
  · exact absurd (leads.behind _ member) (Nat.not_le_of_lt moves)

/-- What is mentioned after a nullable part is mentioned on the left, and otherwise the place moves
on. -/
theorem after {nullable : Bool} (leads : Leads grammar active position
      (mentions ++ if nullable then others else []))
    (forward : position ≤ next) (stays : next = position -> nullable = true) :
    Leads grammar active next others := by
  rcases Nat.eq_or_lt_of_le forward with same | moves
  · rw [if_pos (stays same.symm)] at leads
    exact same ▸ leads.restrict (List.subset_append_right _ _)
  · exact leads.onward moves

theorem inside {target : Rule} (leads : Leads grammar active position [name])
    (found : grammar.find? name = some target) :
    Leads grammar (⟨name, position⟩ :: active) position
      (target.effective.leftMentions grammar.nullableRules) := by
  refine ⟨fun frame member => ?_, fun outer member called within => ?_⟩
  · rcases List.mem_cons.mp member with rfl | member
    · exact Nat.le_refl _
    · exact leads.behind frame member
  · have call : grammar.CallsOnLeft name called := ⟨target, found, within⟩
    rcases List.mem_cons.mp member with same | member
    · cases same
      exact .single call
    · exact .tail (leads.reaches outer member name List.mem_cons_self) call

end Leads

/-- In a grammar without left recursion no call is refused. -/
theorem Evaluates.unrefused (acyclic : grammar.LeftAcyclic)
    (evaluates : Evaluates grammar tokens active rule expression position answer log)
    (leads : Leads grammar active position (expression.leftMentions grammar.nullableRules)) :
    log.refusals = 0 := by
  induction evaluates with
  | literal => exact TokenTest.refusals_log
  | mock => exact TokenTest.refusals_log
  | undefined => rfl
  | @refused _ _ name _ _ _ member =>
    exact absurd (leads.reaches name member name List.mem_cons_self) (acyclic name)
  | called found _ _ inductionHypothesis => exact inductionHypothesis (leads.inside found)
  | sequenceNil => rfl
  | sequenceStops _ _ inductionHypothesis =>
    exact inductionHypothesis (leads.restrict (List.subset_append_left _ _))
  | sequenceGoesOn item _ itemHypothesis restHypothesis =>
    rw [Log.refusals_append, itemHypothesis (leads.restrict (List.subset_append_left _ _))]
    have rest := leads.after (item.covers _ rfl).le_next (item.isNullable _ rfl)
    rw [restHypothesis rest]
  | choiceNil => rfl
  | choiceStops _ _ inductionHypothesis =>
    exact inductionHypothesis (leads.restrict (List.subset_append_left _ _))
  | choiceGoesOn _ _ firstHypothesis restHypothesis =>
    rw [Log.refusals_append, firstHypothesis (leads.restrict (List.subset_append_left _ _)),
      restHypothesis (leads.restrict (List.subset_append_right _ _))]
  | optional _ inductionHypothesis => exact inductionHypothesis leads
  | zeroOrMoreStops _ _ inductionHypothesis => exact inductionHypothesis leads
  | zeroOrMoreGoesOn body moves _ bodyHypothesis restHypothesis =>
    have forward := (body.covers _ rfl).le_next
    rw [Log.refusals_append, bodyHypothesis leads,
      restHypothesis (leads.onward (Nat.lt_of_le_of_ne forward (Ne.symm moves)))]
  | oneOrMoreStops _ _ inductionHypothesis => exact inductionHypothesis leads
  | oneOrMoreGoesOn body moves _ bodyHypothesis restHypothesis =>
    have forward := (body.covers _ rfl).le_next
    rw [Log.refusals_append, bodyHypothesis leads,
      restHypothesis (leads.onward (Nat.lt_of_le_of_ne forward (Ne.symm moves)))]

end Matching
end Packrat
