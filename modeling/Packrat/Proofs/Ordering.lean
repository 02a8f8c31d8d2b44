import Packrat.Proofs.Generation
import Packrat.Proofs.Masks

namespace Packrat
namespace Grammar

/-!
# Grammars keep their rules in order

The rules of every grammar that calls can make are in ascending order of their names, so no two of
them have the same name.  Hence a rule is what is found under its name, and what an analysis finds
out about the rules one by one holds of the rules that a match calls.
-/

/-- The rules are in ascending order of their names. -/
def Ordered (grammar : Grammar) : Prop :=
  grammar.rules.Pairwise fun first second => first.name < second.name

variable {grammar : Grammar} {rule target : Rule} {rules : List Rule} {name : String}

/-! ## Changes keep the order -/

theorem ordered_place
    (ordered : rules.Pairwise fun first second => first.name < second.name) :
    (place rule rules).Pairwise fun first second => first.name < second.name := by
  induction rules with
  | nil => exact List.pairwise_singleton _ _
  | cons other rest inductionHypothesis =>
    rcases List.pairwise_cons.mp ordered with ⟨least, ordered⟩
    rw [place]
    by_cases before : rule.name < other.name
    · rw [if_pos before]
      refine List.Pairwise.cons (fun later member => ?_) (List.Pairwise.cons least ordered)
      rcases List.mem_cons.mp member with rfl | member
      · exact before
      · exact String.lt_trans before (least later member)
    · rw [if_neg before]
      by_cases same : rule.name = other.name
      · rw [if_pos same]
        exact List.Pairwise.cons (fun later member => same ▸ least later member) ordered
      · rw [if_neg same]
        refine List.Pairwise.cons (fun later member => ?_) (inductionHypothesis ordered)
        rcases mem_place member with rfl | member
        · exact Std.lt_of_le_of_ne (String.not_lt.mp before) (Ne.symm same)
        · exact least later member

theorem Ordered.map (ordered : grammar.Ordered) (change : Rule -> Rule)
    (named : forall rule, (change rule).name = rule.name) (generation : Nat) :
    Ordered ⟨grammar.rules.map change, generation⟩ := by
  refine List.pairwise_map.mpr (ordered.imp fun before => ?_)
  rw [named, named]
  exact before

theorem Ordered.setMock (ordered : grammar.Ordered) (name : String) (mocked : Bool) :
    (grammar.setMock name mocked).Ordered := by
  refine ordered.map _ (fun rule => ?_) _
  split <;> rfl

theorem Ordered.change (ordered : grammar.Ordered) (change : Change) :
    (grammar.change change).Ordered := by
  cases change with
  | define name definition => exact ordered_place ordered
  | mock name =>
    simp only [Grammar.change, mock, get]
    cases grammar.find? name with
    | none => exact ordered
    | some target => exact ordered.setMock name true
  | unmock name =>
    simp only [Grammar.change, unmock, get]
    cases grammar.find? name with
    | none => exact ordered
    | some target =>
      by_cases mocked : target.mocked = true
      · simp only [Except.map, mocked, if_true]
        exact ordered.setMock name false
      · simp only [Except.map, mocked]
        exact ordered
  | unmockAll =>
    simp only [Grammar.change, unmockAll]
    split
    · exact ordered.map (·.withMock false) (fun _ => rfl) _
    · exact ordered

/-- Every grammar that calls can make is in order. -/
theorem ordered_changes (run : List Change) : (({} : Grammar).changes run).Ordered := by
  have kept : forall grammar : Grammar, grammar.Ordered -> (grammar.changes run).Ordered := by
    induction run with
    | nil => exact fun _ ordered => ordered
    | cons change run inductionHypothesis =>
      exact fun grammar ordered => inductionHypothesis _ (ordered.change change)
  exact kept {} List.Pairwise.nil

/-! ## Rules and their names -/

theorem Ordered.find?_of_mem (ordered : grammar.Ordered) (listed : target ∈ grammar.rules) :
    grammar.find? target.name = some target := by
  rcases List.append_of_mem listed with ⟨before, after, split⟩
  have earlier : forall rule, rule ∈ before -> rule.name < target.name := by
    intro rule member
    rw [Ordered, split] at ordered
    exact (List.pairwise_append.mp ordered).2.2 rule member target List.mem_cons_self
  refine List.find?_eq_some_iff_append.mpr ⟨beq_self_eq_true _, before, after, split, ?_⟩
  intro rule member
  have different : rule.name ≠ target.name := by
    intro same
    exact String.lt_irrefl _ (same ▸ earlier rule member)
  rw [beq_eq_false_iff_ne.mpr different]
  rfl

end Grammar
end Packrat
