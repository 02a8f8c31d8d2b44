import Packrat.Token.Kind

namespace Packrat

/-!
# Grammar expressions

An expression says what a rule matches: single tokens, other rules, and their combinations in
the extended Backus-Naur form.  A choice is ordered.  The mock stands for the name of the rule in
which it occurs.
-/

/-- What a rule matches.  A token test names a kind and perhaps a text, and a reference stands for
what its rule matches.  A mock stands for the name of the rule in which it occurs. -/
inductive Expression where
  | literal (kind : Token.Kind) (text : Option String)
  | rule (name : String)
  | sequence (items : List Expression)
  | choice (alternatives : List Expression)
  | optional (body : Expression)
  | zeroOrMore (body : Expression)
  | oneOrMore (body : Expression)
  | mock
  deriving Inhabited

namespace Expression

def word (text : String) : Expression :=
  literal .keyword (some text)

/-- An operator or a bracket. -/
def op (text : String) : Expression :=
  literal .operator (some text)

def any (kind : Token.Kind) : Expression :=
  literal kind none

/-- Items between commas, with a comma allowed at the end.  There is at least one item, and a comma
behind the last one belongs to the list. -/
def commaList (item : Expression) : Expression :=
  sequence [item, zeroOrMore (sequence [op ",", item]), optional (op ",")]

mutual

def same : Expression -> Expression -> Bool
  | literal kind text, literal kind' text' => kind == kind' && text == text'
  | rule name, rule name' => name == name'
  | sequence items, sequence items' => sameAll items items'
  | choice alternatives, choice alternatives' => sameAll alternatives alternatives'
  | optional body, optional body' => same body body'
  | zeroOrMore body, zeroOrMore body' => same body body'
  | oneOrMore body, oneOrMore body' => same body body'
  | mock, mock => true
  | _, _ => false

def sameAll : List Expression -> List Expression -> Bool
  | [], [] => true
  | item :: items, item' :: items' => same item item' && sameAll items items'
  | _, _ => false

end

mutual

theorem same_iff : (first second : Expression) -> (same first second = true <-> first = second)
  | literal kind text, second => by cases second <;> simp [same]
  | rule name, second => by cases second <;> simp [same]
  | sequence items, second => by cases second <;> simp [same, sameAll_iff items]
  | choice items, second => by cases second <;> simp [same, sameAll_iff items]
  | optional body, second => by cases second <;> simp [same, same_iff body]
  | zeroOrMore body, second => by cases second <;> simp [same, same_iff body]
  | oneOrMore body, second => by cases second <;> simp [same, same_iff body]
  | mock, second => by cases second <;> simp [same]

theorem sameAll_iff : (first second : List Expression) ->
    (sameAll first second = true <-> first = second)
  | [], second => by cases second <;> simp [sameAll]
  | item :: items, second => by
    cases second <;> simp [sameAll, same_iff item, sameAll_iff items]

end

instance : DecidableEq Expression :=
  fun first second => decidable_of_iff (same first second = true) (same_iff first second)

end Expression
end Packrat
