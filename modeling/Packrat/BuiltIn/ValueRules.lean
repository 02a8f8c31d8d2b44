import Packrat.Expression.Basic

namespace Packrat
namespace BuiltIn

/-!
# Rules of values

The expressions of the language, from the conditional expression down to the atom, with the
comprehensions, argument lists and subscripts inside them.
-/

open Expression

def name : Expression :=
  any .identifier

/-- Operands between operators of one precedence. -/
def binary (operand : String) (operators : List String) : Expression :=
  let operator :=
    match operators with
    | [single] => op single
    | _ => choice (operators.map op)
  sequence [rule operand, zeroOrMore (sequence [operator, rule operand])]

def varargs : Expression :=
  commaList (choice
    [ sequence [op "**", name],
      sequence [op "*", optional name],
      op "/",
      sequence [name, optional (sequence [op "=", rule "test"])] ])

def testOrStar : Expression :=
  choice [rule "test", rule "star_expr"]

def valueRules : List (String × Expression) :=
  [ ("test",
      choice
        [ sequence
            [ rule "or_test",
              optional (sequence [word "if", rule "or_test", word "else", rule "test"]) ],
          rule "lambdef" ]),
    ("test_nocond", choice [rule "or_test", rule "lambdef_nocond"]),
    ("namedexpr_test", choice [sequence [name, op ":=", rule "test"], rule "test"]),
    ("lambdef", sequence [word "lambda", optional varargs, op ":", rule "test"]),
    ("lambdef_nocond", sequence [word "lambda", optional varargs, op ":", rule "test_nocond"]),
    ("or_test", sequence [rule "and_test", zeroOrMore (sequence [word "or", rule "and_test"])]),
    ("and_test", sequence [rule "not_test", zeroOrMore (sequence [word "and", rule "not_test"])]),
    ("not_test", choice [sequence [word "not", rule "not_test"], rule "comparison"]),
    ("comparison", sequence [rule "expr", zeroOrMore (sequence [rule "comp_op", rule "expr"])]),
    ("comp_op",
      choice
        [ op "<",
          op ">",
          op "==",
          op ">=",
          op "<=",
          op "<>",
          op "!=",
          word "in",
          sequence [word "not", word "in"],
          sequence [word "is", word "not"],
          word "is" ]),
    ("star_expr", sequence [op "*", rule "expr"]),
    ("expr", binary "xor_expr" ["|"]),
    ("xor_expr", binary "and_expr" ["^"]),
    ("and_expr", binary "shift_expr" ["&"]),
    ("shift_expr", binary "arith_expr" ["<<", ">>"]),
    ("arith_expr", binary "term" ["+", "-"]),
    ("term", binary "factor" ["*", "@", "/", "%", "//"]),
    ("factor", choice [sequence [choice [op "+", op "-", op "~"], rule "factor"], rule "power"]),
    ("power", sequence [rule "atom_expr", optional (sequence [op "**", rule "factor"])]),
    ("atom_expr", sequence [optional (word "await"), rule "atom", zeroOrMore (rule "trailer")]),
    ("atom",
      choice
        [ sequence [op "(", optional (choice [rule "yield_expr", rule "testlist_comp"]), op ")"],
          sequence [op "[", optional (rule "testlist_comp"), op "]"],
          sequence [op "\x7b", optional (rule "dictorsetmaker"), op "\x7d"],
          name,
          oneOrMore (any .literal),
          op "...",
          word "None",
          word "True",
          word "False" ]),
    ("testlist_comp",
      sequence
        [ choice [rule "namedexpr_test", rule "star_expr"],
          choice
            [ rule "comp_for",
              sequence
                [ zeroOrMore
                    (sequence [op ",", choice [rule "namedexpr_test", rule "star_expr"]]),
                  optional (op ",") ] ] ]),
    ("trailer",
      choice
        [ sequence [op "(", optional (rule "arglist"), op ")"],
          sequence [op "[", rule "subscriptlist", op "]"],
          sequence [op ".", name] ]),
    ("subscriptlist", commaList (rule "subscript")),
    ("subscript",
      choice
        [ sequence
            [ optional (rule "test"),
              op ":",
              optional (rule "test"),
              optional (sequence [op ":", optional (rule "test")]) ],
          rule "test" ]),
    ("exprlist", commaList (choice [rule "expr", rule "star_expr"])),
    ("testlist", commaList (rule "test")),
    ("testlist_star_expr", commaList testOrStar),
    ("dictorsetmaker",
      choice
        [ sequence
            [ rule "dict_item",
              choice
                [ rule "comp_for",
                  sequence
                    [ zeroOrMore (sequence [op ",", rule "dict_item"]),
                      optional (op ",") ] ] ],
          sequence
            [ testOrStar,
              choice
                [ rule "comp_for",
                  sequence [zeroOrMore (sequence [op ",", testOrStar]), optional (op ",")] ] ] ]),
    ("dict_item",
      choice [sequence [rule "test", op ":", rule "test"], sequence [op "**", rule "expr"]]),
    ("arglist", commaList (rule "argument")),
    ("argument",
      choice
        [ sequence [rule "test", rule "comp_for"],
          sequence [name, op ":=", rule "test"],
          sequence [name, op "=", rule "test"],
          sequence [op "**", rule "test"],
          sequence [op "*", rule "test"],
          rule "test" ]),
    ("comp_for",
      sequence
        [ optional (word "async"),
          word "for",
          rule "exprlist",
          word "in",
          rule "or_test",
          optional (rule "comp_iter") ]),
    ("comp_iter", choice [rule "comp_for", rule "comp_if"]),
    ("comp_if", sequence [word "if", rule "test_nocond", optional (rule "comp_iter")]),
    ("yield_expr",
      sequence
        [ word "yield",
          optional (choice [sequence [word "from", rule "test"], rule "testlist_star_expr"]) ]) ]

end BuiltIn
end Packrat
