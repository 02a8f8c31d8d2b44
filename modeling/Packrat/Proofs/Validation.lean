import Mathlib.Logic.Relation
import Packrat.Grammar.Reachable
import Packrat.Proofs.Outcome

namespace Packrat

/-!
# In a validated grammar every match has a result

The search for undefined rules keeps every name that it has seen either in its queue or defined,
with all its references among the seen names.  Each name is seen only once, so the bound on the
steps is never reached before the queue is empty.  Then everything that can be reached from the
root is defined, and an expression that mentions only such rules never meets an error.
-/

open Relation (ReflTransGen)

namespace Grammar

/-! ## References -/

/-- A rule refers to another one when its expression mentions it. -/
def RefersTo (grammar : Grammar) (name mentioned : String) : Prop :=
  Exists fun target => grammar.find? name = some target ∧ mentioned ∈ target.effective.mentions

/-- A rule can be reached from a root by references.  What matters is what the rules match at
present, so that a mock refers to nothing. -/
def Reaches (grammar : Grammar) (root name : String) : Prop :=
  ReflTransGen grammar.RefersTo root name

/-- Every rule that can be reached from a root is defined, and so is the root itself. -/
def Complete (grammar : Grammar) (root : String) : Prop :=
  forall name, grammar.Reaches root name -> Exists fun target => grammar.find? name = some target

variable {grammar : Grammar} {root name : String} {steps : Nat} {seen : List String}
  {visit : Visit} {queue : List Visit} {target : Rule}

theorem Complete.find?_ne_none (complete : grammar.Complete root)
    (reaches : grammar.Reaches root name) : grammar.find? name ≠ none := by
  intro missing
  rcases complete name reaches with ⟨target, found⟩
  rw [missing] at found
  cases found

/-- In a grammar that defines the same rules, and where none of them refers to more, everything
that can be reached is defined too. -/
theorem Complete.of_mentions_subset {later : Grammar} (complete : grammar.Complete root)
    (fewer : forall name target, grammar.find? name = some target -> Exists fun other =>
      later.find? name = some other ∧ other.effective.mentions ⊆ target.effective.mentions) :
    later.Complete root := by
  have reaches_before : forall name, later.Reaches root name -> grammar.Reaches root name := by
    intro name reaches
    induction reaches with
    | refl => exact .refl
    | @tail user _ _ refers inductionHypothesis =>
      rcases complete user inductionHypothesis with ⟨target, found⟩
      rcases fewer user target found with ⟨other, found', subset⟩
      rcases refers with ⟨other', found'', mentioned⟩
      cases found'.symm.trans found''
      exact inductionHypothesis.tail ⟨target, found, subset mentioned⟩
  intro name reaches
  rcases complete name (reaches_before name reaches) with ⟨target, found⟩
  rcases fewer name target found with ⟨other, found', -⟩
  exact ⟨other, found'⟩

/-! ## The search for undefined rules -/

/-- What the search keeps from step to step.  Every name has been seen once, and together with the
steps that are left the names that have left the queue are as many as can ever be seen. -/
structure Following (grammar : Grammar) (root : String) (steps : Nat) (seen : List String)
    (queue : List Visit) : Prop where
  rooted : root ∈ seen
  explored : forall name, name ∈ seen -> (Exists fun visit => visit ∈ queue ∧ visit.name = name) ∨
    Exists fun target => grammar.find? name = some target ∧ target.effective.mentions ⊆ seen
  nodup : seen.Nodup
  subset : seen ⊆ root :: grammar.mentions
  balance : grammar.mentions.length + 1 + queue.length = steps + seen.length

namespace Following

theorem start : Following grammar root (grammar.mentions.length + 1) [root] [⟨root, none⟩] := by
  refine ⟨List.mem_cons_self, fun name member => ?_, List.pairwise_singleton _ _, ?_, rfl⟩
  · cases List.mem_singleton.mp member
    exact Or.inl ⟨_, List.mem_cons_self, rfl⟩
  · exact List.cons_subset.mpr ⟨List.mem_cons_self, List.nil_subset _⟩

theorem length_le (following : Following grammar root steps seen queue) :
    queue.length ≤ steps := by
  have bound := following.nodup.length_le_of_subset following.subset
  have balance := following.balance
  rw [List.length_cons] at bound
  omega

/-- A visit puts the references that are new at the end of the queue. -/
theorem step (following : Following grammar root (steps + 1) seen (visit :: queue))
    (found : grammar.find? visit.name = some target) {fresh : List String}
    (new : fresh = target.effective.references.filter fun name => !seen.contains name) :
    Following grammar root steps (seen ++ fresh)
      (queue ++ fresh.map fun name => ⟨name, some target.name⟩) := by
  have mem_fresh : forall name, name ∈ fresh <->
      name ∈ target.effective.mentions ∧ name ∉ seen := by
    intro name
    rw [new, List.mem_filter, Expression.mem_references]
    simp
  refine ⟨List.mem_append_left _ following.rooted, fun name member => ?_, ?_, ?_, ?_⟩
  · rcases List.mem_append.mp member with earlier | later
    · rcases following.explored name earlier with ⟨other, waiting, rfl⟩ | ⟨other, defined, known⟩
      · rcases List.mem_cons.mp waiting with rfl | waiting
        · refine Or.inr ⟨target, found, fun mentioned within => ?_⟩
          by_cases before : mentioned ∈ seen
          · exact List.mem_append_left _ before
          · exact List.mem_append_right _ ((mem_fresh mentioned).mpr ⟨within, before⟩)
        · exact Or.inl ⟨other, List.mem_append_left _ waiting, rfl⟩
      · exact Or.inr ⟨other, defined, fun mentioned within =>
          List.mem_append_left _ (known within)⟩
    · exact Or.inl ⟨_, List.mem_append_right _ (List.mem_map_of_mem later), rfl⟩
  · have distinct : fresh.Nodup := by
      rw [new]
      exact (Expression.nodup_references _).filter _
    refine List.nodup_append.mpr ⟨following.nodup, distinct, ?_⟩
    rintro name earlier other later rfl
    exact ((mem_fresh name).mp later).2 earlier
  · refine List.append_subset.mpr ⟨following.subset, fun name member => ?_⟩
    have listed := ((mem_fresh name).mp member).1
    refine List.mem_cons_of_mem _ (List.mem_flatMap.mpr ⟨target, ?_, ?_⟩)
    · exact (mem_rules_of_find? found).1
    · exact Expression.mem_references.mpr listed
  · have balance := following.balance
    rw [List.length_cons] at balance
    rw [List.length_append, List.length_append, List.length_map]
    omega

theorem complete (following : Following grammar root steps seen []) : grammar.Complete root := by
  have settled : forall name, name ∈ seen -> Exists fun target =>
      grammar.find? name = some target ∧ target.effective.mentions ⊆ seen := by
    intro name member
    rcases following.explored name member with ⟨_, impossible, -⟩ | explored
    · cases impossible
    · exact explored
  intro name reaches
  have member : name ∈ seen := by
    induction reaches with
    | refl => exact following.rooted
    | tail _ refers inductionHypothesis =>
      rcases settled _ inductionHypothesis with ⟨target, found, known⟩
      rcases refers with ⟨other, found', mentioned⟩
      cases found.symm.trans found'
      exact known mentioned
  rcases settled name member with ⟨target, found, -⟩
  exact ⟨target, found⟩

end Following

theorem complete_of_follow (following : Following grammar root steps seen queue)
    (ok : follow grammar steps seen queue = .ok ()) : grammar.Complete root := by
  induction steps generalizing seen queue with
  | zero =>
    have empty := List.length_eq_zero_iff.mp (Nat.le_zero.mp following.length_le)
    subst empty
    exact following.complete
  | succ steps inductionHypothesis =>
    cases queue with
    | nil => exact following.complete
    | cons visit queue =>
      rw [follow] at ok
      split at ok
      · cases ok
      · rename_i target found
        exact inductionHypothesis (following.step found rfl) ok

/-- The check for undefined rules is sound. -/
theorem complete_of_validate (validated : grammar.validate root = .ok ()) :
    grammar.Complete root :=
  complete_of_follow .start validated

end Grammar

/-! ## No match meets an error -/

namespace Matching

variable {grammar : Grammar} {tokens : Array Token} {active : List Frame} {root rule : String}
  {expression : Expression} {position : Nat} {answer : Answer} {log : Log}

/-- An error of an expression whose mentions can all be reached from the root is about an undefined
rule that can be reached from it too. -/
theorem Evaluates.undefined_of_error
    (evaluates : Evaluates grammar tokens active rule expression position answer log)
    (reached : forall name, name ∈ expression.mentions -> grammar.Reaches root name) :
    forall error, answer = .error error -> Exists fun name =>
      error = .undefinedRule name none ∧ grammar.find? name = none ∧
        grammar.Reaches root name := by
  induction evaluates with
  | literal => intro error impossible; cases impossible
  | mock => intro error impossible; cases impossible
  | @undefined _ _ name _ missing =>
    intro error failed
    cases failed
    exact ⟨name, rfl, missing, reached name List.mem_cons_self⟩
  | refused => intro error impossible; cases impossible
  | @called _ _ _ _ target _ _ found _ _ inductionHypothesis =>
    intro error failed
    refine inductionHypothesis (fun name mentioned => ?_) error (Answer.map_eq_error failed)
    exact (reached _ List.mem_cons_self).tail ⟨target, found, mentioned⟩
  | sequenceNil => intro error impossible; cases impossible
  | sequenceStops _ _ inductionHypothesis =>
    exact inductionHypothesis fun name mentioned => reached name (List.mem_append_left _ mentioned)
  | sequenceGoesOn _ _ _ restHypothesis =>
    exact fun error failed => restHypothesis
      (fun name mentioned => reached name (List.mem_append_right _ mentioned)) error
      (Answer.map_eq_error failed)
  | choiceNil => intro error impossible; cases impossible
  | choiceStops _ _ inductionHypothesis =>
    exact inductionHypothesis fun name mentioned => reached name (List.mem_append_left _ mentioned)
  | choiceGoesOn _ _ _ restHypothesis =>
    exact restHypothesis fun name mentioned => reached name (List.mem_append_right _ mentioned)
  | optional _ inductionHypothesis =>
    exact fun error failed => inductionHypothesis reached error (Answer.map_eq_error failed)
  | zeroOrMoreStops _ _ inductionHypothesis =>
    exact fun error failed => inductionHypothesis reached error (Answer.map_eq_error failed)
  | zeroOrMoreGoesOn _ _ _ _ restHypothesis =>
    exact fun error failed => restHypothesis reached error (Answer.map_eq_error failed)
  | oneOrMoreStops _ _ inductionHypothesis =>
    exact fun error failed => inductionHypothesis reached error (Answer.map_eq_error failed)
  | oneOrMoreGoesOn _ _ _ _ restHypothesis =>
    exact fun error failed => restHypothesis reached error (Answer.map_eq_error failed)

/-- An expression whose mentions can all be reached from the root has a result. -/
theorem Evaluates.ne_error (complete : grammar.Complete root)
    (evaluates : Evaluates grammar tokens active rule expression position answer log)
    (reached : forall name, name ∈ expression.mentions -> grammar.Reaches root name) :
    forall error, answer ≠ .error error := by
  intro error failed
  rcases evaluates.undefined_of_error reached error failed with ⟨name, -, missing, reaches⟩
  exact complete.find?_ne_none reaches missing

/-- An error of a call is about an undefined rule that can be reached from the called one. -/
theorem Evaluates.undefined_of_call {error : GrammarError}
    (evaluates : Evaluates grammar tokens active rule (.rule root) position (.error error) log) :
    Exists fun name => error = .undefinedRule name none ∧ grammar.find? name = none ∧
      grammar.Reaches root name := by
  apply evaluates.undefined_of_error _ error rfl
  intro name mentioned
  cases List.mem_singleton.mp mentioned
  exact .refl

end Matching

/-! ## Matchers -/

namespace Matcher

variable {matcher : Matcher} {root rule : String} {start : Nat} {furthest : Option Failure}
  {tokens : Array Token} {result : Except GrammarError (Option Tree)} {error : GrammarError}

theorem error_of_report (failed : report rule start furthest result = .error error) :
    result = .error error := by
  rcases result with error' | none | tree <;> cases failed
  rfl

theorem error_of_reportEntirely
    (failed : reportEntirely tokens rule furthest result = .error error) :
    result = .error error := by
  rcases result with error' | none | tree
  · cases failed
    rfl
  · cases failed
  · simp only [reportEntirely] at failed
    by_cases short : tree.stop < endOf tokens
    · rw [if_pos short] at failed
      cases failed
    · rw [if_neg short] at failed
      cases failed

/-- Whatever error the match of a rule reports, it is about an undefined rule that can be reached
from the matched one. -/
theorem undefined_of_matchRule (failed : (matcher.matchRule root start).1 = .error error) :
    Exists fun name => error = .undefinedRule name none ∧ matcher.grammar.find? name = none ∧
      matcher.grammar.Reaches root name := by
  rcases matcher.matchRule_evaluates root start with ⟨result, log, evaluates, reports⟩
  have same : result = .error error := error_of_report (reports.symm.trans failed)
  subst same
  exact evaluates.undefined_of_call

/-- The same holds of a match of the whole input. -/
theorem undefined_of_matchEntirely (failed : (matcher.matchEntirely root).1 = .error error) :
    Exists fun name => error = .undefinedRule name none ∧ matcher.grammar.find? name = none ∧
      matcher.grammar.Reaches root name := by
  rcases matcher.matchEntirely_evaluates root with ⟨result, log, evaluates, reports⟩
  have same : result = .error error := error_of_reportEntirely (reports.symm.trans failed)
  subst same
  exact evaluates.undefined_of_call

theorem matchRule_ok (matcher : Matcher) (root : String) (start : Nat)
    (validated : matcher.grammar.validate root = .ok ()) :
    Exists fun outcome => (matcher.matchRule root start).1 = .ok outcome := by
  cases matched : (matcher.matchRule root start).1 with
  | ok outcome => exact ⟨outcome, rfl⟩
  | error error =>
    rcases undefined_of_matchRule matched with ⟨name, -, missing, reaches⟩
    have complete := Grammar.complete_of_validate validated
    exact absurd missing (complete.find?_ne_none reaches)

theorem matchEntirely_ok (matcher : Matcher) (root : String)
    (validated : matcher.grammar.validate root = .ok ()) :
    Exists fun outcome => (matcher.matchEntirely root).1 = .ok outcome := by
  cases matched : (matcher.matchEntirely root).1 with
  | ok outcome => exact ⟨outcome, rfl⟩
  | error error =>
    rcases undefined_of_matchEntirely matched with ⟨name, -, missing, reaches⟩
    have complete := Grammar.complete_of_validate validated
    exact absurd missing (complete.find?_ne_none reaches)

end Matcher
end Packrat
