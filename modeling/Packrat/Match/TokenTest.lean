import Packrat.Expression.Display
import Packrat.Text.UpperCase
import Packrat.Token.Basic

namespace Packrat

/-!
# Token tests

A matcher looks at a token only to test it.  There are two tests: for a kind with or without a
certain text, and for the spelling of a rule's name.
-/

/-- A question about one token: whether it is of a kind and has a certain text, or whether it spells
the name of a rule.  The latter is what a mock asks. -/
inductive TokenTest where
  | literal (kind : Token.Kind) (text : Option String)
  | spelling (name : String)
  deriving DecidableEq

namespace TokenTest

/-- Whether a token passes.  The name of a rule may be spelled as it is or in upper case. -/
def passes : TokenTest -> Token -> Bool
  | literal kind text, token => token.kind == kind && text.all (· == token.text)
  | spelling name, token =>
    !token.kind.isSynthetic && (token.text == name || token.text == Text.upperCase name)

def describe : TokenTest -> String
  | literal kind text => Expression.describeLiteral kind text
  | spelling name => s!"'{name}'"

end TokenTest
end Packrat
