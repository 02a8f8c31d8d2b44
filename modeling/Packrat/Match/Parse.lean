import Packrat.Grammar.Reachable
import Packrat.Match.Matcher
import Packrat.Token.Stream
import Packrat.Tree.Text

namespace Packrat

/-!
# Matching and parsing

The entry points for a single match.  All of them check first that everything reachable from the
rule is defined, so that a missing rule is never taken for a failed match.
-/

/-- Why a source could not be parsed.  It has no tokens, or the grammar cannot be used for the rule,
or the rule does not match all of the source. -/
inductive ParseError where
  | lex (error : LexError)
  | grammar (error : GrammarError)
  | noMatch (error : NoMatch)
  deriving DecidableEq

namespace ParseError

def message : ParseError -> String
  | lex error => error.message
  | grammar error => error.message
  | noMatch error => s!"no match: {error.message}"

end ParseError

namespace Grammar

def matchRule (grammar : Grammar) (rule : String) (tokens : Array Token) (start : Nat) :
    Except GrammarError Outcome := do
  grammar.validate rule
  ((Matcher.mk grammar tokens true {}).matchRule rule start).1

def matchEntirely (grammar : Grammar) (rule : String) (tokens : Array Token)
    (memoize : Bool := true) : Except GrammarError Outcome := do
  grammar.validate rule
  ((Matcher.mk grammar tokens memoize {}).matchEntirely rule).1

/-- Whether a rule matches the whole of a source. -/
def matchesEntirely (grammar : Grammar) (rule source : String) : Except ParseError Bool := do
  let tokens ← (Token.ofSource source).mapError ParseError.lex
  let outcome ← (grammar.matchEntirely rule tokens.toArray).mapError ParseError.grammar
  return outcome.isSuccess

/-- Parse a source by a rule.  Anything but a match of the whole source is an error, and a failure
of the match is reported with the position of its token. -/
def parse (grammar : Grammar) (rule source : String) (tabSize : Nat := Token.defaultTabSize)
    (memoize : Bool := true) : Except ParseError Parse := do
  let tokens ← (Token.stream tabSize source).mapError ParseError.lex
  let tokens := tokens.toArray
  match ← (grammar.matchEntirely rule tokens memoize).mapError ParseError.grammar with
  | .success root => return ⟨tokens, root⟩
  | .failure failure => throw (.noMatch (.ofFailure failure tokens))

end Grammar
end Packrat
