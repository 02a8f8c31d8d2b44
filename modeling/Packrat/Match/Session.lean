import Std.Data.HashMap
import Packrat.Grammar.Error
import Packrat.Match.Failure
import Packrat.Match.TokenTest

namespace Packrat

/-!
# Sessions

While a rule is matched, a session collects what outlives a single step: the remembered results of
rules, the number of refused calls, and the failure that got furthest.  It survives an error.
-/

/-- A rule at a place: a call of the rule there.  Frames are the keys of the remembered results, and
a frame that is being matched is active. -/
structure Frame where
  rule : String
  position : Nat
  deriving DecidableEq, Hashable, Inhabited

/-- What a running match remembers: the results of frames, the number of refused calls, and the
furthest failure.  No result is kept that was found while a call was refused. -/
structure Session where
  memo : Std.HashMap Frame (Option Tree) := {}
  refused : Nat := 0
  furthest : Option Failure := none

/-- A computation of a running match.  It may end in an error of the grammar, and then the session
is left as it was at the error. -/
abbrev Matching := EStateM GrammarError Session

/-- What a part of an expression matched: the nodes in order, and the place after them.  A part that
matched no token has no node, or only nodes of rules that took none. -/
structure Step where
  next : Nat
  nodes : List Tree

namespace Session

def note (session : Session) (position : Nat) (rule expected : String) : Session :=
  { session with furthest := some (Failure.extend session.furthest position rule expected) }

def refuse (session : Session) : Session :=
  { session with refused := session.refused + 1 }

def remember (session : Session) (frame : Frame) (result : Option Tree) : Session :=
  { session with memo := session.memo.insert frame result }

end Session

namespace Matching

/-- Test the token at a place on behalf of a rule.  A token that passes is a leaf; otherwise, and
behind the last token, the session notes what was expected. -/
def test (tokens : Array Token) (rule : String) (question : TokenTest) (position : Nat) :
    Matching (Option Step) :=
  match tokens[position]? with
  | some token =>
    if question.passes token then pure (some ⟨position + 1, [.leaf position]⟩)
    else fail
  | none => fail
where
  /-- The failed test goes to the session. -/
  fail : Matching (Option Step) := do
    modify fun session => session.note position rule question.describe
    return none

end Matching
end Packrat
