import Packrat.Token.Basic
import Packrat.Tree.Basic

namespace Packrat

/-!
# Failures of a match

A failed match is reported by the failed token test that got furthest: the place of its token, the
rule that was being matched there first, and every test that failed at that place.
-/

/-- Where a match stopped, in which rule, and what could have continued it.  The rule is the one
that was being matched when a test failed there first, and the expectations are those of all tests
that failed there. -/
structure Failure where
  position : Nat
  rule : String
  expected : List String
  deriving DecidableEq, Inhabited

namespace Failure

/-- The furthest failure after one more failed test.  A test further on takes the place of what was
noted before, one at the same place adds its expectation, and an earlier one adds nothing. -/
def extend (furthest : Option Failure) (position : Nat) (rule expected : String) : Failure :=
  match furthest with
  | none => ⟨position, rule, [expected]⟩
  | some failure =>
    if failure.position < position then ⟨position, rule, [expected]⟩
    else if position = failure.position && !failure.expected.contains expected then
      { failure with expected := failure.expected ++ [expected] }
    else failure

/-- The failure with one more expectation, unless it has it already. -/
def expecting (failure : Failure) (expected : String) : Failure :=
  if failure.expected.contains expected then failure
  else { failure with expected := failure.expected ++ [expected] }

/-- Expectations as a phrase: "nothing", a single one, or several with "or" before the last. -/
def phrase : List String -> String
  | [] => "nothing"
  | [single] => single
  | several => ", ".intercalate several.dropLast ++ " or " ++ several.getLastD ""

def expectedList (failure : Failure) : String :=
  phrase failure.expected

/-- The failure in words, by the index of its token. -/
def display (failure : Failure) : String :=
  s!"expected {failure.expectedList} at token {failure.position} in rule '{failure.rule}'"

end Failure

/-- What a match comes to: a tree, or the failure that got furthest.  An error of the grammar is no
outcome. -/
inductive Outcome where
  | success (tree : Tree)
  | failure (failure : Failure)
  deriving Inhabited

namespace Outcome

def isSuccess : Outcome -> Bool
  | success _ => true
  | failure _ => false

def consumed? : Outcome -> Option Nat
  | success tree => some tree.consumed
  | failure _ => none

end Outcome

/-- A failure in terms of the source, for readers who take no match for an error.  It names a
position in place of a token index, and it says what was found there. -/
structure NoMatch where
  position : Source.Position
  rule : String
  expected : String
  found : String
  deriving DecidableEq

namespace NoMatch

/-- The failure at its token, or at the last token when it lies after all of them. -/
def ofFailure (failure : Failure) (tokens : Array Token) : NoMatch :=
  let token := tokens[failure.position]? <|> tokens.back?
  { position := (token.map Token.position).getD {}
    rule := failure.rule
    expected := failure.expectedList
    found := (token.map Token.describe).getD "end of input" }

def message (failure : NoMatch) : String :=
  s!"{failure.position.display}: expected {failure.expected} in rule '{failure.rule}', " ++
    s!"found {failure.found}"

end NoMatch
end Packrat
