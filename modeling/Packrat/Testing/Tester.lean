import Packrat.Match.Parse

namespace Packrat

/-!
# Testing rules

A tester asserts what one rule of a grammar matches.  While a scope of mocks is open, the named
rules match only their own names, so that a rule can be tested apart from the rules below it.
Closing a scope releases exactly the mocks that it set.
-/

/-- What a rule is expected to do with an input. -/
inductive Assertion where
  | accepts (input : String)
  | rejects (input : String)
  | consumes (input : String) (count : Nat)

/-- How an assertion about a rule failed. -/
inductive Complaint where
  | unreadable (root input : String) (error : LexError)
  | unusable (root input : String) (error : GrammarError)
  | unmatched (root input : String) (failure : NoMatch)
  | unexpected (root input : String) (consumed : Nat)
  | miscounted (root input : String) (consumed expected : Nat)
  deriving DecidableEq

namespace Complaint

def message : Complaint -> String
  | unreadable root input error =>
    s!"rule '{root}' could not match {Text.quote input}: {error.message}"
  | unusable root input error =>
    s!"rule '{root}' could not match {Text.quote input}: {error.message}"
  | unmatched root input failure =>
    s!"rule '{root}' did not match {Text.quote input}: {failure.message}"
  | unexpected root input consumed =>
    s!"rule '{root}' unexpectedly matched {Text.quote input} ({consumed} tokens)"
  | miscounted root input consumed expected =>
    s!"assertion \x60left == right\x60 failed: rule '{root}' consumed {consumed} tokens of " ++
      s!"{Text.quote input}, expected {expected}\n  left: {consumed}\n right: {expected}"

end Complaint

namespace Assertion

/-- Check an assertion about a rule of a grammar.  An input that cannot be read is one that the
rule does not match. -/
def check (grammar : Grammar) (root : String) : Assertion -> Except Complaint Unit
  | accepts input => do
    let tokens ← (Token.ofSource input).mapError (.unreadable root input)
    let outcome ← (grammar.matchEntirely root tokens.toArray).mapError (.unusable root input)
    match outcome with
    | .success _ => return ()
    | .failure failure => throw (.unmatched root input (.ofFailure failure tokens.toArray))
  | rejects input =>
    match Token.ofSource input with
    | .error _ => return ()
    | .ok tokens => do
      let outcome ← (grammar.matchEntirely root tokens.toArray).mapError (.unusable root input)
      match outcome with
      | .success tree => throw (.unexpected root input tree.consumed)
      | .failure _ => return ()
  | consumes input count => do
    let tokens ← (Token.ofSource input).mapError (.unreadable root input)
    let outcome ← (grammar.matchRule root tokens.toArray 0).mapError (.unusable root input)
    match outcome with
    | .success tree =>
      if tree.consumed = count then return ()
      else throw (.miscounted root input tree.consumed count)
    | .failure failure => throw (.unmatched root input (.ofFailure failure tokens.toArray))

end Assertion

/-- A grammar and the rule of it that is tested.  A tester that `ofGrammar` has made refers to
nothing undefined, and its scopes keep it so. -/
structure RuleTester where
  grammar : Grammar
  root : String

/-- A tester while some more rules are mocked.  The list `mocked` has the rules that the scope
itself mocked and will release; a rule that was mocked before is not among them. -/
structure MockScope where
  tester : RuleTester
  mocked : List String

/-- The rules to mock in a scope and the assertions to check there. -/
structure ScopeUse where
  names : List String
  assertions : List Assertion

/-- How the use of a scope ended: it was not opened, an assertion failed, or all of them held. -/
inductive ScopeEnd where
  | unopened (error : GrammarError)
  | unwound (complaint : Complaint)
  | passed
  deriving DecidableEq

namespace RuleTester

/-- A tester of a rule; everything reachable from the rule has to be defined. -/
def ofGrammar (grammar : Grammar) (root : String) : Except GrammarError RuleTester := do
  grammar.validate root
  return ⟨grammar, root⟩

def check (tester : RuleTester) (assertion : Assertion) : Except Complaint Unit :=
  assertion.check tester.grammar tester.root

def isMocked (tester : RuleTester) (name : String) : Bool :=
  tester.grammar.isMocked name

end RuleTester

namespace MockScope

/-- Mock one more rule, unless it is mocked already. -/
def extend (scope : MockScope) (name : String) : Except GrammarError MockScope :=
  if scope.tester.isMocked name then .ok scope
  else
    (scope.tester.grammar.mock name).map fun grammar =>
      ⟨{ scope.tester with grammar }, scope.mocked ++ [name]⟩

def close (scope : MockScope) : RuleTester :=
  let grammar := scope.mocked.foldl
    (fun grammar name => (grammar.unmock name).toOption.getD grammar) scope.tester.grammar
  { scope.tester with grammar }

/-- Mock rules in a scope one after the other.  At an undefined rule the scope ends, and the tester
that it leaves comes with the error. -/
def extendAll (scope : MockScope) : List String -> Except (GrammarError × RuleTester) MockScope
  | [] => .ok scope
  | name :: names =>
    match scope.extend name with
    | .ok wider => wider.extendAll names
    | .error error => .error (error, scope.close)

end MockScope

namespace RuleTester

/-- Open a scope in which some rules are mocked. -/
def mock (tester : RuleTester) (names : List String) :
    Except (GrammarError × RuleTester) MockScope :=
  MockScope.extendAll ⟨tester, []⟩ names

/-- Open a scope and check assertions in it until one fails.  The scope is closed in either case,
and the tester that is left is returned with the end. -/
def inScope (tester : RuleTester) (use : ScopeUse) : ScopeEnd × RuleTester :=
  match tester.mock use.names with
  | .error (error, left) => (.unopened error, left)
  | .ok scope =>
    match use.assertions.forM scope.tester.check with
    | .ok () => (.passed, scope.close)
    | .error complaint => (.unwound complaint, scope.close)

/-- The tester after some scopes, each opened when the one before it has ended. -/
def inScopes (tester : RuleTester) (uses : List ScopeUse) : RuleTester :=
  uses.foldl (fun tester use => (tester.inScope use).2) tester

end RuleTester

/-- An input with a line break after it, for rules that need the end of their line. -/
def withNewline (input : String) : String :=
  input ++ "\n"

end Packrat
