import Packrat.Grammar.Basic

namespace Packrat

/-!
# Nullable rules

An expression is nullable when it can match no token at all.  Whether a reference is nullable
depends on a set of rules; the nullable rules of a grammar are the least set that contains every
rule whose expression is nullable under the set itself.
-/

namespace Expression

mutual

/-- Whether an expression can match without a token, if exactly the named rules can.  A token test
never can, and nor can a mock, which tests for the name of its rule. -/
def isNullable (names : List String) : Expression -> Bool
  | literal _ _ => false
  | rule name => names.contains name
  | sequence items => allNullable names items
  | choice alternatives => anyNullable names alternatives
  | optional _ => true
  | zeroOrMore _ => true
  | oneOrMore body => isNullable names body
  | mock => false

def allNullable (names : List String) : List Expression -> Bool
  | [] => true
  | item :: items => isNullable names item && allNullable names items

def anyNullable (names : List String) : List Expression -> Bool
  | [] => false
  | item :: items => isNullable names item || anyNullable names items

end

end Expression

namespace Grammar

/-- The rules that are nullable when the named ones are. -/
def nullableFrom (grammar : Grammar) (names : List String) : List String :=
  (grammar.rules.filter fun rule => rule.effective.isNullable names).map Rule.name

/-- The rules found nullable in a number of rounds, starting from none.  Every round looks at all
rules again under the names that the round before has found. -/
def nullableWithin (grammar : Grammar) : Nat -> List String
  | 0 => []
  | rounds + 1 => grammar.nullableFrom (grammar.nullableWithin rounds)

/-- The nullable rules in ascending order.  Every round before the last adds a rule, so there are
no more rounds than rules. -/
def nullableRules (grammar : Grammar) : List String :=
  grammar.nullableWithin grammar.size

/-! ## The same set in place

The rounds start afresh from the names of the round before.  A pass over the rules finds the same
set with one list of names, where a rule found early in a pass counts for the rules after it. -/

/-- One pass over some rules, where the name of a nullable rule is added at once.  Rules that come
later in the pass already see it, and a rule that was found is not looked at again. -/
def nullablePass (names : List String) : List Rule -> List String
  | [] => names
  | rule :: rules =>
    if !names.contains rule.name && rule.effective.isNullable names then
      nullablePass (names ++ [rule.name]) rules
    else nullablePass names rules

/-- The rules whose names have not been found. -/
def missingFrom (grammar : Grammar) (names : List String) : List Rule :=
  grammar.rules.filter fun rule => !names.contains rule.name

theorem missingFrom_append (grammar : Grammar) (names more : List String) :
    grammar.missingFrom (names ++ more) =
      (grammar.missingFrom names).filter fun rule => !more.contains rule.name := by
  rw [missingFrom, missingFrom, List.filter_filter]
  refine List.filter_congr fun rule _ => ?_
  rw [List.contains_append, Bool.not_or, Bool.and_comm]

theorem exists_nullablePass (names : List String) (rules : List Rule) :
    Exists fun more => nullablePass names rules = names ++ more := by
  induction rules generalizing names with
  | nil => exact ⟨[], (List.append_nil _).symm⟩
  | cons rule rules inductionHypothesis =>
    rw [nullablePass]
    split
    · rcases inductionHypothesis (names ++ [rule.name]) with ⟨more, same⟩
      exact ⟨rule.name :: more, by rw [same, List.append_assoc, List.singleton_append]⟩
    · exact inductionHypothesis names

/-- Fewer names are missing after a pass that finds a rule. -/
theorem missingFrom_nullablePass {grammar : Grammar} {names : List String} {rules : List Rule}
    (among : forall rule, rule ∈ rules -> rule ∈ grammar.rules)
    (grows : (nullablePass names rules).length ≠ names.length) :
    (grammar.missingFrom (nullablePass names rules)).length <
      (grammar.missingFrom names).length := by
  induction rules with
  | nil => exact absurd rfl grows
  | cons rule rules inductionHypothesis =>
    rw [List.forall_mem_cons] at among
    rw [nullablePass] at grows ⊢
    split at grows
    · rename_i found
      rw [if_pos found]
      rw [Bool.and_eq_true, Bool.not_eq_true'] at found
      rcases exists_nullablePass (names ++ [rule.name]) rules with ⟨more, same⟩
      rw [same, missingFrom_append, missingFrom_append]
      have missing : rule ∈ grammar.missingFrom names :=
        List.mem_filter.mpr ⟨among.1, by rw [found.1]; rfl⟩
      exact Nat.lt_of_le_of_lt (List.length_filter_le _ _)
        (List.length_filter_lt_length_iff_exists.mpr ⟨rule, missing, by simp⟩)
    · rename_i known
      rw [if_neg known]
      exact inductionHypothesis among.2 grows

/-- The names found by passes over the rules of a grammar, until a pass finds no further one.  Each
pass but the last finds a name that was missing, so there is a last one. -/
def nullableInPlace (grammar : Grammar) (names : List String := []) : List String :=
  if (nullablePass names grammar.rules).length = names.length then names
  else grammar.nullableInPlace (nullablePass names grammar.rules)
termination_by (grammar.missingFrom names).length
decreasing_by
  rename_i grows
  exact missingFrom_nullablePass (fun _ listed => listed) grows

end Grammar
end Packrat
