import Packrat.Expression.Reference
import Packrat.Grammar.Basic

namespace Packrat
namespace Grammar

/-!
# Reachable rules

A rule is usable when every rule that can be reached from it by references is defined.  The search
goes breadth first and follows what rules match at present, so that a mock hides the references of
the definition under it.
-/

/-- A reference that is still to be followed: the name, and the rule that refers to it.  The root of
a search is visited without such a rule. -/
structure Visit where
  name : String
  referencedBy : Option String

/-- Follow the references in the queue.  `seen` holds every name that has been in the queue, and
`steps` bounds the number of references to follow. -/
def follow (grammar : Grammar) :
    (steps : Nat) -> (seen : List String) -> (queue : List Visit) -> Except GrammarError Unit
  | _, _, [] => .ok ()
  | 0, _, _ :: _ => .ok ()
  | steps + 1, seen, visit :: queue =>
    match grammar.find? visit.name with
    | none => .error (.undefinedRule visit.name visit.referencedBy)
    | some rule =>
      let fresh := rule.effective.references.filter fun name => !seen.contains name
      follow grammar steps (seen ++ fresh) (queue ++ fresh.map fun name => ⟨name, some rule.name⟩)

/-- The names mentioned in all rules: no more references than these are ever to be followed. -/
def mentions (grammar : Grammar) : List String :=
  grammar.rules.flatMap fun rule => rule.effective.references

/-- Check that a rule and everything reachable from it is defined.  References are followed breadth
first, so that a missing rule is reported with a rule that is as near to the root as any that refers
to it. -/
def validate (grammar : Grammar) (root : String) : Except GrammarError Unit :=
  follow grammar (grammar.mentions.length + 1) [root] [⟨root, none⟩]

end Grammar
end Packrat
