import Packrat.Grammar.Basic
import Packrat.BuiltIn.BlockRules
import Packrat.BuiltIn.StatementRules

namespace Packrat
namespace BuiltIn

/-!
# The built-in grammar

The grammar of Python, from whole files down to atoms.
-/

/-- The rules of the language, none of them mocked. -/
def grammar : Grammar :=
  Grammar.ofDefinitions (blockRules ++ statementRules ++ valueRules)

end BuiltIn
end Packrat
