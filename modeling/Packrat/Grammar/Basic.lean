import Packrat.Expression.Basic
import Packrat.Grammar.Error

namespace Packrat

/-!
# Grammars

A grammar is a table of named rules in ascending order of their names.  A rule can be mocked: its
definition is then kept but hidden, and the rule matches its own name instead.  Every change that
can alter what a rule matches gives the grammar a new generation.
-/

/-- A named rule with its definition.  A mock hides the definition and does not replace it, so that
the definition is there again when the mock is released. -/
structure Rule where
  name : String
  definition : Expression
  mocked : Bool := false
  deriving DecidableEq, Inhabited

namespace Rule

/-- What the rule matches at present. -/
def effective (rule : Rule) : Expression :=
  if rule.mocked then .mock else rule.definition

def withMock (rule : Rule) (mocked : Bool) : Rule :=
  { rule with mocked := mocked }

end Rule

/-- A table of rules in ascending order of their names.  The generation counts the changes that can
alter what a rule matches, so that results of different generations can be told apart. -/
structure Grammar where
  rules : List Rule := []
  generation : Nat := 0
  deriving DecidableEq, Inhabited

namespace Grammar

def find? (grammar : Grammar) (name : String) : Option Rule :=
  grammar.rules.find? (·.name == name)

theorem mem_rules_of_find? {grammar : Grammar} {name : String} {target : Rule}
    (found : grammar.find? name = some target) : target ∈ grammar.rules ∧ target.name = name :=
  ⟨List.mem_of_find?_eq_some found, by simpa using List.find?_some found⟩

/-- The rule of a name, or the error that it is not defined. -/
def get (grammar : Grammar) (name : String) : Except GrammarError Rule :=
  match grammar.find? name with
  | some rule => .ok rule
  | none => .error (.undefinedRule name none)

def contains (grammar : Grammar) (name : String) : Bool :=
  (grammar.find? name).isSome

theorem contains_of_found {grammar : Grammar} {name : String} {target : Rule}
    (found : grammar.find? name = some target) : grammar.contains name = true := by
  rw [contains, found]
  rfl

theorem contains_of_missing {grammar : Grammar} {name : String}
    (missing : grammar.find? name = none) : grammar.contains name = false := by
  rw [contains, missing]
  rfl

/-- What a rule matches at present, if it is defined. -/
def effective? (grammar : Grammar) (name : String) : Option Expression :=
  (grammar.find? name).map Rule.effective

def effective (grammar : Grammar) (name : String) : Except GrammarError Expression :=
  (grammar.get name).map Rule.effective

/-- Put a rule in its place; an earlier rule of the same name gives way. -/
def place (rule : Rule) : List Rule -> List Rule
  | [] => [rule]
  | other :: rest =>
    if rule.name < other.name then rule :: other :: rest
    else if rule.name = other.name then rule :: rest
    else other :: place rule rest

/-- A placed rule is found under its name, and nothing changes about the other names. -/
theorem find?_place (rule : Rule) (rules : List Rule) (name : String) :
    (place rule rules).find? (·.name == name) =
      if name = rule.name then some rule else rules.find? (·.name == name) := by
  have first : forall rest : List Rule, (rule :: rest).find? (·.name == name) =
      if name = rule.name then some rule else rest.find? (·.name == name) := by
    intro rest
    by_cases same : name = rule.name
    · simp [same]
    · simp [same, beq_eq_false_iff_ne.mpr (Ne.symm same)]
  induction rules with
  | nil => exact first []
  | cons other rest inductionHypothesis =>
    rw [place]
    split
    · exact first (other :: rest)
    · rename_i notBefore
      by_cases same : rule.name = other.name
      · rw [if_pos same, first, List.find?_cons, ← same]
        by_cases asked : name = rule.name
        · rw [if_pos asked, if_pos asked]
        · rw [if_neg asked, if_neg asked, beq_eq_false_iff_ne.mpr (Ne.symm asked)]
      · rw [if_neg same, List.find?_cons, List.find?_cons, inductionHypothesis]
        by_cases asked : name = rule.name
        · rw [if_pos asked, asked, beq_eq_false_iff_ne.mpr (Ne.symm same), if_pos rfl]
        · rw [if_neg asked, if_neg asked]

/-- Define a rule.  A second definition replaces the first and releases its mock, and gives the
grammar a new generation; the first definition of a name does not. -/
def define (grammar : Grammar) (name : String) (definition : Expression) : Grammar :=
  ⟨place ⟨name, definition, false⟩ grammar.rules,
    if grammar.contains name then grammar.generation + 1 else grammar.generation⟩

/-- A definition gives its name a rule that is not mocked, and changes no other name. -/
theorem find?_define (grammar : Grammar) (name other : String) (definition : Expression) :
    (grammar.define name definition).find? other =
      if other = name then some ⟨name, definition, false⟩ else grammar.find? other :=
  find?_place _ _ _

def defineAll (grammar : Grammar) (definitions : List (String × Expression)) : Grammar :=
  definitions.foldl (fun grammar (name, definition) => grammar.define name definition) grammar

def ofDefinitions (definitions : List (String × Expression)) : Grammar :=
  defineAll {} definitions

/-- Set or release the mock of one rule.  The definition of the rule is kept, and the grammar has a
new generation even if the mock was set that way before. -/
def setMock (grammar : Grammar) (name : String) (mocked : Bool) : Grammar :=
  ⟨grammar.rules.map fun rule => if rule.name = name then rule.withMock mocked else rule,
    grammar.generation + 1⟩

/-- Setting a mock changes the rule of that name and no other. -/
theorem find?_setMock (grammar : Grammar) (name other : String) (mocked : Bool) :
    (grammar.setMock name mocked).find? other =
      if other = name then (grammar.find? other).map (·.withMock mocked)
      else grammar.find? other := by
  have renamed : ((fun rule : Rule => rule.name == other) ∘ fun rule : Rule =>
      if rule.name = name then rule.withMock mocked else rule) =
        fun rule => rule.name == other := by
    funext rule
    simp only [Function.comp_apply]
    split <;> rfl
  unfold find? setMock
  rw [List.find?_map, renamed]
  cases found : grammar.rules.find? (·.name == other) with
  | none => split <;> rfl
  | some rule =>
    have named : rule.name = other := by simpa using List.find?_some found
    simp only [Option.map_some, named]
    split <;> rfl

def mock (grammar : Grammar) (name : String) : Except GrammarError Grammar :=
  (grammar.get name).map fun _ => grammar.setMock name true

/-- Release the mock of a rule; a rule that is not mocked stays as it is. -/
def unmock (grammar : Grammar) (name : String) : Except GrammarError Grammar :=
  (grammar.get name).map fun rule => if rule.mocked then grammar.setMock name false else grammar

theorem find?_unmock (grammar : Grammar) (name other : String) :
    ((grammar.unmock name).toOption.getD grammar).find? other =
      if other = name then (grammar.find? other).map (·.withMock false)
      else grammar.find? other := by
  unfold unmock get
  cases found : grammar.find? name with
  | none =>
    by_cases same : other = name
    · rw [if_pos same, same, found]
      exact found
    · rw [if_neg same]
      rfl
  | some target =>
    by_cases mocked : target.mocked
    · simp only [Except.map, mocked, if_true]
      exact find?_setMock grammar name other false
    · simp only [Except.map, mocked]
      by_cases same : other = name
      · have released : target.withMock false = target := by
          rw [Rule.withMock, ← Bool.eq_false_iff.mpr mocked]
        rw [if_pos same, same, found, Option.map_some, released]
        exact found
      · rw [if_neg same]
        rfl

def mockAll (grammar : Grammar) (names : List String) : Except GrammarError Grammar :=
  names.foldlM mock grammar

/-- Release every mock at once. -/
def unmockAll (grammar : Grammar) : Grammar :=
  if grammar.rules.any Rule.mocked then
    ⟨grammar.rules.map (·.withMock false), grammar.generation + 1⟩
  else grammar

def isMocked (grammar : Grammar) (name : String) : Bool :=
  (grammar.find? name).any Rule.mocked

def ruleNames (grammar : Grammar) : List String :=
  grammar.rules.map Rule.name

def mockedRules (grammar : Grammar) : List String :=
  (grammar.rules.filter Rule.mocked).map Rule.name

def size (grammar : Grammar) : Nat :=
  grammar.rules.length

end Grammar
end Packrat
