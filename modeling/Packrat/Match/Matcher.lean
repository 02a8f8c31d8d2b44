import Packrat.Match.Call

namespace Packrat

/-!
# Matchers

A matcher holds a grammar and tokens, and the session of its last match.  Every match begins with
a fresh session.
-/

/-- A grammar, tokens to match, and what the last match left behind.  The session is kept to be
looked at afterwards; the next match does not go on from it. -/
structure Matcher where
  grammar : Grammar
  tokens : Array Token
  memoize : Bool := true
  session : Session := {}

namespace Matcher

/-- The number of results remembered in the last match. -/
def memoized (matcher : Matcher) : Nat :=
  matcher.session.memo.size

/-- The index of the end of the file among some tokens, or their number when there is none. -/
def endOf (tokens : Array Token) : Nat :=
  tokens.findIdx (·.kind == .endOfFile)

/-- The index of the end of the file, or the number of tokens when there is none. -/
def endOfInput (matcher : Matcher) : Nat :=
  endOf matcher.tokens

/-- The furthest failure of a session, or the bare fact that a rule failed at a place.  The latter
is left when no test has failed, as with a choice without alternatives. -/
def failureOf (session : Session) (rule : String) (position : Nat) : Failure :=
  session.furthest.getD ⟨position, rule, []⟩

/-- Match a rule from a token on; more tokens may follow.  An undefined rule leaves the matcher as
it is. -/
def matchRule (matcher : Matcher) (rule : String) (start : Nat) :
    Except GrammarError Outcome × Matcher :=
  match matcher.grammar.get rule with
  | .error e => (.error e, matcher)
  | .ok _ =>
    match (Matching.start matcher.grammar matcher.tokens matcher.memoize rule start).run {} with
    | .ok (some tree) session => (.ok (.success tree), { matcher with session })
    | .ok none session => (.ok (.failure (failureOf session rule start)), { matcher with session })
    | .error e session => (.error e, { matcher with session })

/-- The failure of a match that ends before the input does: the furthest failure if it is there,
with the end of the file among the expectations. -/
def leftover (session : Session) (rule : String) (position : Nat) : Failure :=
  let failure :=
    match session.furthest with
    | some furthest => if furthest.position = position then furthest else ⟨position, rule, []⟩
    | none => ⟨position, rule, []⟩
  failure.expecting Token.Kind.endOfFile.name

/-- Match a rule against everything before the end of the file.  A match that ends earlier is a
failure at its end, even if the rule itself matched. -/
def matchEntirely (matcher : Matcher) (rule : String) : Except GrammarError Outcome × Matcher :=
  match matcher.matchRule rule 0 with
  | (.ok (.success tree), after) =>
    if tree.stop < matcher.endOfInput then
      (.ok (.failure (leftover after.session rule tree.stop)), after)
    else (.ok (.success tree), after)
  | other => other

end Matcher
end Packrat
