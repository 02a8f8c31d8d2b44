import Mathlib.Data.List.Forall2
import Packrat.BuiltIn.Grammar
import Packrat.Proofs.LeftRecursion
import Packrat.Proofs.Validation

namespace Packrat

/-!
# Mocks hide definitions

A grammar of definitions has rules for these definitions and no others.  Mocking hides the
definition of a rule and keeps it.  So two grammars that come from one another by mocks have the
same rules with the same definitions, and a rule of either matches its own name or its definition.
Hence a property of all definitions that names have too survives every set of mocks.

The name of a rule mentions nothing and is not nullable.  So when some rules are mocked besides, no
rule becomes nullable, no rule refers to another one that it did not refer to, and none calls
another one on the left that it did not call.
-/

namespace Rule

theorem effective_eq_or (rule : Rule) :
    rule.effective = .mock ∨ rule.effective = rule.definition :=
  ite_eq_or_eq _ _ _

theorem effective_of_not_mocked {rule : Rule} (unmocked : rule.mocked = false) :
    rule.effective = rule.definition := by
  rw [effective, unmocked]
  rfl

/-- A rule masks another one of its name when it matches what the other one does, or only its own
name. -/
structure Masks (rule twin : Rule) : Prop where
  name_eq : rule.name = twin.name
  effective_eq_or : rule.effective = .mock ∨ rule.effective = twin.effective

namespace Masks

variable {rule twin other : Rule}

theorem refl (rule : Rule) : rule.Masks rule :=
  ⟨rfl, Or.inr rfl⟩

theorem trans (first : rule.Masks twin) (second : twin.Masks other) : rule.Masks other := by
  refine ⟨first.name_eq.trans second.name_eq, ?_⟩
  rcases first.effective_eq_or with hidden | shown
  · exact Or.inl hidden
  · rw [shown]
    exact second.effective_eq_or

theorem mentions_subset (masks : rule.Masks twin) :
    rule.effective.mentions ⊆ twin.effective.mentions := by
  rcases masks.effective_eq_or with hidden | shown
  · rw [hidden]
    exact List.nil_subset _
  · rw [shown]
    exact List.Subset.refl _

end Masks

end Rule

namespace Expression

variable {names more : List String}

mutual

/-- With more nullable rules, an expression mentions more on the left. -/
theorem leftMentions_mono (grows : names ⊆ more) : (expression : Expression) ->
    expression.leftMentions names ⊆ expression.leftMentions more
  | literal _ _ => List.Subset.refl _
  | rule _ => List.Subset.refl _
  | sequence items => leftMentionsInOrder_mono grows items
  | choice alternatives => leftMentionsOfAny_mono grows alternatives
  | optional body => leftMentions_mono grows body
  | zeroOrMore body => leftMentions_mono grows body
  | oneOrMore body => leftMentions_mono grows body
  | mock => List.Subset.refl _

theorem leftMentionsInOrder_mono (grows : names ⊆ more) : (items : List Expression) ->
    leftMentionsInOrder names items ⊆ leftMentionsInOrder more items
  | [] => List.Subset.refl _
  | item :: items => by
    intro name mentioned
    rw [leftMentionsInOrder, List.mem_append] at mentioned ⊢
    refine mentioned.imp (fun first => leftMentions_mono grows item first) fun later => ?_
    by_cases nullable : item.isNullable names = true
    · rw [if_pos nullable] at later
      rw [if_pos (isNullable_mono grows item nullable)]
      exact leftMentionsInOrder_mono grows items later
    · rw [if_neg nullable] at later
      cases later

theorem leftMentionsOfAny_mono (grows : names ⊆ more) : (items : List Expression) ->
    leftMentionsOfAny names items ⊆ leftMentionsOfAny more items
  | [] => List.Subset.refl _
  | item :: items => by
    intro name mentioned
    rw [leftMentionsOfAny, List.mem_append] at mentioned ⊢
    exact mentioned.imp (fun first => leftMentions_mono grows item first)
      fun later => leftMentionsOfAny_mono grows items later

end

end Expression

namespace Grammar

variable {grammar other : Grammar} {names : List String} {name : String} {target : Rule}

/-! ## Definitions -/

/-- The names of the rules with their definitions, hidden or not. -/
def definitions (grammar : Grammar) : List (String × Expression) :=
  grammar.rules.map fun rule => (rule.name, rule.definition)

theorem definitions_setMock (grammar : Grammar) (name : String) (mocked : Bool) :
    (grammar.setMock name mocked).definitions = grammar.definitions := by
  rw [definitions, definitions, setMock, List.map_map]
  refine List.map_congr_left fun rule _ => ?_
  rw [Function.comp_apply]
  split <;> rfl

theorem definitions_mock (mocked : grammar.mock name = .ok other) :
    other.definitions = grammar.definitions := by
  unfold mock at mocked
  cases found : grammar.get name with
  | error error =>
    rw [found] at mocked
    cases mocked
  | ok rule =>
    rw [found] at mocked
    cases mocked
    exact grammar.definitions_setMock name true

/-- What every mock keeps, mocks one after the other keep too. -/
theorem mockAll_keeps (property : Grammar -> Prop)
    (each : forall (before after : Grammar) (name : String), before.mock name = .ok after ->
      property before -> property after)
    (mocked : grammar.mockAll names = .ok other) (holds : property grammar) : property other := by
  induction names generalizing grammar with
  | nil =>
    cases mocked
    exact holds
  | cons name names inductionHypothesis =>
    rw [mockAll, List.foldlM_cons] at mocked
    cases first : grammar.mock name with
    | error error =>
      rw [first] at mocked
      cases mocked
    | ok next =>
      rw [first] at mocked
      exact inductionHypothesis mocked (each grammar next name first holds)

theorem definitions_mockAll (mocked : grammar.mockAll names = .ok other) :
    other.definitions = grammar.definitions :=
  mockAll_keeps (fun later => later.definitions = grammar.definitions)
    (fun _ _ _ first holds => (definitions_mock first).trans holds) mocked rfl

theorem mem_definitions (found : grammar.find? name = some target) :
    (name, target.definition) ∈ grammar.definitions := by
  rcases mem_rules_of_find? found with ⟨listed, rfl⟩
  exact List.mem_map_of_mem listed

/-- What every definition and every name has, every rule has under every set of mocks. -/
theorem effective_of_definitions {property : String -> Expression -> Prop}
    (same : other.definitions = grammar.definitions)
    (defined : forall name definition, (name, definition) ∈ grammar.definitions ->
      property name definition ∧ property name .mock)
    (listed : target ∈ other.rules) : property target.name target.effective := by
  have both := defined target.name target.definition (same ▸ List.mem_map_of_mem listed)
  rcases target.effective_eq_or with hidden | shown
  · rw [hidden]
    exact both.2
  · rw [shown]
    exact both.1

theorem definition?_eq (grammar : Grammar) (name : String) :
    (grammar.find? name).map Rule.definition = grammar.definitions.lookup name := by
  rw [find?, definitions]
  induction grammar.rules with
  | nil => rfl
  | cons rule rules inductionHypothesis =>
    rw [List.find?_cons, List.map_cons, List.lookup_cons, BEq.comm]
    cases name == rule.name with
    | true => rfl
    | false => exact inductionHypothesis

/-! ## Grammars of definitions -/

theorem mem_place {rule other : Rule} {rules : List Rule} (member : other ∈ place rule rules) :
    other = rule ∨ other ∈ rules := by
  induction rules with
  | nil => exact Or.inl (List.mem_singleton.mp member)
  | cons first rest inductionHypothesis =>
    rw [place] at member
    split at member
    · exact List.mem_cons.mp member
    · split at member
      · exact (List.mem_cons.mp member).imp_right (List.mem_cons_of_mem _)
      · rcases List.mem_cons.mp member with rfl | later
        · exact Or.inr List.mem_cons_self
        · exact (inductionHypothesis later).imp_right (List.mem_cons_of_mem _)

theorem mem_defineAll {definitions : List (String × Expression)} {rule : Rule}
    (member : rule ∈ (grammar.defineAll definitions).rules) :
    rule ∈ grammar.rules ∨ (rule.name, rule.definition) ∈ definitions ∧ rule.mocked = false := by
  induction definitions generalizing grammar with
  | nil => exact Or.inl member
  | cons entry definitions inductionHypothesis =>
    rcases inductionHypothesis member with earlier | ⟨listed, released⟩
    · rcases mem_place earlier with rfl | earlier
      · exact Or.inr ⟨List.mem_cons_self, rfl⟩
      · exact Or.inl earlier
    · exact Or.inr ⟨List.mem_cons_of_mem _ listed, released⟩

theorem defineAll_defines {definitions : List (String × Expression)}
    (defined : grammar.find? name ≠ none ∨ name ∈ definitions.map Prod.fst) :
    (grammar.defineAll definitions).find? name ≠ none := by
  induction definitions generalizing grammar with
  | nil => exact defined.resolve_right List.not_mem_nil
  | cons entry definitions inductionHypothesis =>
    apply inductionHypothesis
    rw [find?_define]
    rcases defined with earlier | listed
    · exact Or.inl (by split <;> simp [earlier])
    · rcases List.mem_cons.mp listed with same | later
      · exact Or.inl (by simp [same])
      · exact Or.inr later

/-! ## Complete grammars -/

/-- When the definitions mention only defined rules, everything that can be reached from a defined
rule is defined under every set of mocks. -/
theorem complete_of_definitions {root : String} (same : other.definitions = grammar.definitions)
    (closed : forall name definition, (name, definition) ∈ grammar.definitions ->
      forall mentioned, mentioned ∈ definition.mentions -> grammar.find? mentioned ≠ none)
    (defined : other.find? root ≠ none) : other.Complete root := by
  intro name reaches
  refine Option.ne_none_iff_exists'.mp ?_
  induction reaches with
  | refl => exact defined
  | tail _ refers _ =>
    rcases refers with ⟨target, found, mentioned⟩
    rcases target.effective_eq_or with hidden | shown
    · rw [hidden] at mentioned
      cases mentioned
    · rw [shown] at mentioned
      have known := closed _ _ (same ▸ mem_definitions found) _ mentioned
      rw [ne_eq, ← Option.map_eq_none_iff (f := Rule.definition), definition?_eq, ← same,
        ← definition?_eq, Option.map_eq_none_iff] at known
      exact known

/-! ## Grammars with more mocks -/

/-- A grammar masks another one when its rules mask those of the other one by one. -/
def Masks (other grammar : Grammar) : Prop :=
  List.Forall₂ Rule.Masks other.rules grammar.rules

theorem masks_setMock (grammar : Grammar) (name : String) :
    (grammar.setMock name true).Masks grammar := by
  refine List.forall₂_map_left_iff.mpr (List.forall₂_same.mpr fun rule _ => ?_)
  by_cases same : rule.name = name
  · rw [if_pos same]
    exact ⟨rfl, Or.inl rfl⟩
  · rw [if_neg same]
    exact .refl rule

theorem masks_mock (mocked : grammar.mock name = .ok other) : other.Masks grammar := by
  unfold mock at mocked
  cases found : grammar.get name with
  | error error =>
    rw [found] at mocked
    cases mocked
  | ok rule =>
    rw [found] at mocked
    cases mocked
    exact masks_setMock grammar name

namespace Masks

variable {twin : Rule} {more : List String}

theorem refl (grammar : Grammar) : grammar.Masks grammar :=
  List.forall₂_same.mpr fun rule _ => .refl rule

theorem trans {third : Grammar} (first : other.Masks grammar) (second : grammar.Masks third) :
    other.Masks third := by
  rcases other with ⟨rules, _⟩
  rcases grammar with ⟨twins, _⟩
  rcases third with ⟨thirds, _⟩
  simp only [Grammar.Masks] at first second ⊢
  induction first generalizing thirds with
  | nil => exact second
  | cons hides _ inductionHypothesis =>
    rcases List.forall₂_cons_left_iff.mp second with ⟨third, rest, hides', more, rfl⟩
    exact .cons (hides.trans hides') (inductionHypothesis rest more)

theorem find?_rel (masks : other.Masks grammar) (name : String) :
    Option.Rel Rule.Masks (other.find? name) (grammar.find? name) := by
  unfold Masks at masks
  unfold Grammar.find?
  generalize other.rules = rules, grammar.rules = twins at masks
  induction masks with
  | nil => exact .none
  | @cons rule twin rules twins first _ inductionHypothesis =>
    rw [List.find?_cons, List.find?_cons, first.name_eq]
    cases twin.name == name with
    | true => exact .some first
    | false => exact inductionHypothesis

theorem find?_masked (masks : other.Masks grammar) (found : other.find? name = some target) :
    Exists fun twin => grammar.find? name = some twin ∧ target.Masks twin := by
  have related := masks.find?_rel name
  rw [found] at related
  generalize grammar.find? name = answer at related
  cases related with
  | some hides => exact ⟨_, rfl, hides⟩

theorem find?_masking (masks : other.Masks grammar) (found : grammar.find? name = some twin) :
    Exists fun target => other.find? name = some target ∧ target.Masks twin := by
  have related := masks.find?_rel name
  rw [found] at related
  generalize other.find? name = answer at related
  cases related with
  | some hides => exact ⟨_, rfl, hides⟩

theorem exists_twin (masks : other.Masks grammar) (listed : target ∈ other.rules) :
    Exists fun twin => twin ∈ grammar.rules ∧ target.Masks twin := by
  unfold Masks at masks
  generalize other.rules = rules, grammar.rules = twins at masks listed
  induction masks with
  | nil => cases listed
  | @cons rule twin _ _ first _ inductionHypothesis =>
    rcases List.mem_cons.mp listed with rfl | later
    · exact ⟨twin, List.mem_cons_self, first⟩
    · rcases inductionHypothesis later with ⟨twin, member, hides⟩
      exact ⟨twin, List.mem_cons_of_mem _ member, hides⟩

/-! ### Calls on the left -/

theorem nullableFrom_subset (masks : other.Masks grammar) (grows : names ⊆ more) :
    other.nullableFrom names ⊆ grammar.nullableFrom more := by
  intro name nullable
  rcases List.mem_map.mp nullable with ⟨rule, member, rfl⟩
  rcases List.mem_filter.mp member with ⟨listed, nullable⟩
  rcases masks.exists_twin listed with ⟨twin, listed', hides⟩
  rw [hides.name_eq]
  refine List.mem_map_of_mem (List.mem_filter.mpr ⟨listed', ?_⟩)
  rcases hides.effective_eq_or with hidden | shown
  · rw [hidden] at nullable
    cases nullable
  · rw [shown] at nullable
    exact Expression.isNullable_mono grows _ nullable

/-- Mocks make no rule nullable. -/
theorem nullableRules_subset (masks : other.Masks grammar) :
    other.nullableRules ⊆ grammar.nullableRules := by
  have rounds : forall count, other.nullableWithin count ⊆ grammar.nullableWithin count := by
    intro count
    induction count with
    | zero => exact List.Subset.refl _
    | succ count inductionHypothesis => exact masks.nullableFrom_subset inductionHypothesis
  have sizes : other.size = grammar.size := List.Forall₂.length_eq masks
  rw [nullableRules, nullableRules, sizes]
  exact rounds grammar.size

theorem callsOnLeft {called : String} (masks : other.Masks grammar)
    (call : other.CallsOnLeft name called) : grammar.CallsOnLeft name called := by
  rcases call with ⟨target, found, mentioned⟩
  rcases masks.find?_masked found with ⟨twin, found', hides⟩
  refine ⟨twin, found', ?_⟩
  rcases hides.effective_eq_or with hidden | shown
  · rw [hidden] at mentioned
    cases mentioned
  · rw [shown] at mentioned
    exact Expression.leftMentions_mono masks.nullableRules_subset _ mentioned

theorem leftAcyclic (masks : other.Masks grammar) (acyclic : grammar.LeftAcyclic) :
    other.LeftAcyclic :=
  fun name cycle => acyclic name
    (Relation.TransGen.mono (fun _ _ => masks.callsOnLeft) name name cycle)

/-! ### References -/

theorem refersTo {mentioned : String} (masks : other.Masks grammar)
    (refers : other.RefersTo name mentioned) : grammar.RefersTo name mentioned := by
  rcases refers with ⟨target, found, within⟩
  rcases masks.find?_masked found with ⟨twin, found', hides⟩
  exact ⟨twin, found', hides.mentions_subset within⟩

theorem reaches {root : String} (masks : other.Masks grammar) (reaches : other.Reaches root name) :
    grammar.Reaches root name :=
  Relation.ReflTransGen.mono (fun _ _ => masks.refersTo) root name reaches

theorem complete {root : String} (masks : other.Masks grammar) (complete : grammar.Complete root) :
    other.Complete root := by
  refine complete.of_mentions_subset fun name twin found => ?_
  rcases masks.find?_masking found with ⟨target, found', hides⟩
  exact ⟨target, found', hides.mentions_subset⟩

end Masks

/-- A grammar with more mocks masks the one before. -/
theorem masks_mockAll (mocked : grammar.mockAll names = .ok other) : other.Masks grammar :=
  mockAll_keeps (fun later => later.Masks grammar)
    (fun _ _ _ first holds => (masks_mock first).trans holds) mocked (.refl grammar)

end Grammar

/-! ## The built-in grammar -/

namespace BuiltIn

theorem mem_of_mem_definitions {entry : String × Expression}
    (member : entry ∈ grammar.definitions) :
    entry ∈ blockRules ++ statementRules ++ valueRules := by
  rcases List.mem_map.mp member with ⟨rule, listed, rfl⟩
  rcases Grammar.mem_defineAll listed with impossible | ⟨defined, -⟩
  · cases impossible
  · exact defined

theorem not_mocked {rule : Rule} (member : rule ∈ grammar.rules) : rule.mocked = false := by
  rcases Grammar.mem_defineAll member with impossible | ⟨-, released⟩
  · cases impossible
  · exact released

end BuiltIn
end Packrat
