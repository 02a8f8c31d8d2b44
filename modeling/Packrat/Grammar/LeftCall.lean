import Packrat.Expression.Reference
import Packrat.Grammar.Nullable

namespace Packrat

/-!
# Left recursion

A rule calls another on the left when it can reach it before any token is matched.  A grammar is
left-recursive when some rule can come back to itself by such calls.
-/

namespace Expression

mutual

/-- The rules that an expression may enter before it has matched a token, with repetitions, if
exactly the named rules are nullable. -/
def leftMentions (nullable : List String) : Expression -> List String
  | literal _ _ => []
  | rule name => [name]
  | sequence items => leftMentionsInOrder nullable items
  | choice alternatives => leftMentionsOfAny nullable alternatives
  | optional body => leftMentions nullable body
  | zeroOrMore body => leftMentions nullable body
  | oneOrMore body => leftMentions nullable body
  | mock => []

/-- The left mentions of items in order: of the first, and of the rest if the first is nullable. -/
def leftMentionsInOrder (nullable : List String) : List Expression -> List String
  | [] => []
  | item :: items =>
    leftMentions nullable item ++
      if item.isNullable nullable then leftMentionsInOrder nullable items else []

def leftMentionsOfAny (nullable : List String) : List Expression -> List String
  | [] => []
  | item :: items => leftMentions nullable item ++ leftMentionsOfAny nullable items

end

/-- The rules that an expression calls on the left, each once, after some calls that are known
already. -/
def leftCalls (expression : Expression) (nullable known : List String) : List String :=
  addNames known (expression.leftMentions nullable)

end Expression

namespace Grammar

/-- The left calls of a rule; an undefined rule has none. -/
def leftCallsOf (grammar : Grammar) (nullable : List String) (name : String) : List String :=
  match grammar.find? name with
  | some rule => rule.effective.leftCalls nullable []
  | none => []

/-- Search the left calls depth first for a way back to a rule of the path.  The answer is such a
cycle, or the rules that are known to lead to none.  `depth` bounds the length of the path. -/
def search (calls : String -> List String) :
    (depth : Nat) -> (path : List String) -> (done : List String) -> (name : String) ->
      Except (List String) (List String)
  | depth, path, done, name =>
    if path.contains name then .error (path.dropWhile (· != name) ++ [name])
    else if done.contains name then .ok done
    else
      match depth with
      | 0 => .ok done
      | depth + 1 => do
        let done ← (calls name).foldlM (search calls depth (path ++ [name])) done
        return done ++ [name]

/-- A cycle of left calls, if there is one.  The rules are searched in the order of their names, and
names from which no cycle was found are not searched again. -/
def findLeftRecursion (grammar : Grammar) : Option (List String) :=
  let nullable := grammar.nullableRules
  let calls := grammar.leftCallsOf nullable
  let searched : Except (List String) (List String) :=
    grammar.ruleNames.foldlM (search calls (grammar.size + 2) []) []
  match searched with
  | .error cycle => some cycle
  | .ok _ => none

/-- Check that a grammar has no left recursion. -/
def checkLeftRecursion (grammar : Grammar) : Except GrammarError Unit :=
  match grammar.findLeftRecursion with
  | some cycle => .error (.leftRecursion cycle)
  | none => .ok ()

end Grammar
end Packrat
