import Packrat.Expression.Basic

namespace Packrat
namespace Expression

/-!
# Expressions in extended Backus-Naur form

Words and operators are shown in single quotes, other tokens by the name of their kind.  Brackets
mean an optional part, a star or a plus a repetition.  Parentheses stand only where an expression
would otherwise read differently: around a choice inside a sequence, and around several items that
are repeated.
-/

/-- A token test in words: the wanted text in quotes, or the name of the kind. -/
def describeLiteral (kind : Token.Kind) : Option String -> String
  | some text => s!"'{text}'"
  | none => kind.name

/-- Whether an expression has several parts side by side.  Only the outermost sequence or choice is
looked at, and one of a single part does not count. -/
def isCompound : Expression -> Bool
  | sequence items => 1 < items.length
  | choice alternatives => 1 < alternatives.length
  | _ => false

/-- Whether an expression offers several alternatives.  As with compounds, a choice of a single
alternative does not count, whatever this alternative is. -/
def isAlternation : Expression -> Bool
  | choice alternatives => 1 < alternatives.length
  | _ => false

def parenthesized (shown : String) : String :=
  "( " ++ shown ++ " )"

mutual

/-- An expression in extended Backus-Naur form.  Parentheses stand around choices among the items of
a sequence and around compounds that are repeated, and nowhere else. -/
def display : Expression -> String
  | literal kind text => describeLiteral kind text
  | rule name => name
  | sequence items => " ".intercalate (displayItems items)
  | choice alternatives => " | ".intercalate (displayAlternatives alternatives)
  | optional body => "[ " ++ display body ++ " ]"
  | zeroOrMore body =>
    (if body.isCompound then parenthesized (display body) else display body) ++ "*"
  | oneOrMore body =>
    (if body.isCompound then parenthesized (display body) else display body) ++ "+"
  | mock => "<mock>"

/-- The items of a sequence, choices among them in parentheses. -/
def displayItems : List Expression -> List String
  | [] => []
  | item :: items =>
    (if item.isAlternation then parenthesized (display item) else display item) ::
      displayItems items

def displayAlternatives : List Expression -> List String
  | [] => []
  | item :: items => display item :: displayAlternatives items

end

/-- An expression as a diagnostic names it. -/
def describe : Expression -> String
  | literal kind text => describeLiteral kind text
  | other => other.display

end Expression
end Packrat
