namespace Packrat

/-!
# Errors of grammars

A grammar is unusable for a rule when that rule or one it refers to is not defined.  A left
recursion is reported by the rules of the cycle, the first one repeated at the end.
-/

/-- Why a grammar cannot be used.  A rule may be missing, with the rule that refers to it when there
is one, or rules may call themselves on the left along a path. -/
inductive GrammarError where
  | undefinedRule (name : String) (referencedBy : Option String)
  | leftRecursion (cycle : List String)
  deriving DecidableEq

namespace GrammarError

def message : GrammarError -> String
  | undefinedRule name none => s!"undefined rule '{name}'"
  | undefinedRule name (some user) => s!"undefined rule '{name}' referenced by '{user}'"
  | leftRecursion cycle => "left recursion: " ++ " -> ".intercalate cycle

end GrammarError
end Packrat
