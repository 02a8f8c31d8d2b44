import Packrat.BuiltIn.ValueRules

namespace Packrat
namespace BuiltIn

/-!
# Rules of statements with a block

The whole file, the statements that contain others, and the blocks themselves.
-/

open Expression

def newline : Expression :=
  any .newline

def block : Expression :=
  sequence [op ":", rule "suite"]

/-- The block of the other case, if there is one. -/
def elseBlock : Expression :=
  optional (sequence [word "else", block])

def blockRules : List (String × Expression) :=
  [ ("file_input", sequence [zeroOrMore (choice [newline, rule "statement"]), any .endOfFile]),
    ("statement", choice [rule "compound_stmt", sequence [rule "stmt_list", newline]]),
    ("suite",
      choice
        [ sequence [rule "stmt_list", newline],
          sequence [newline, any .indent, oneOrMore (rule "statement"), any .dedent] ]),
    ("compound_stmt",
      choice
        [ rule "if_stmt",
          rule "while_stmt",
          rule "for_stmt",
          rule "try_stmt",
          rule "with_stmt",
          rule "funcdef",
          rule "classdef",
          rule "decorated",
          rule "async_stmt" ]),
    ("if_stmt",
      sequence
        [ word "if",
          rule "namedexpr_test",
          block,
          zeroOrMore (sequence [word "elif", rule "namedexpr_test", block]),
          elseBlock ]),
    ("while_stmt", sequence [word "while", rule "namedexpr_test", block, elseBlock]),
    ("for_stmt",
      sequence [word "for", rule "exprlist", word "in", rule "testlist", block, elseBlock]),
    ("try_stmt",
      sequence
        [ word "try",
          block,
          choice
            [ sequence
                [ oneOrMore (sequence [rule "except_clause", block]),
                  elseBlock,
                  optional (sequence [word "finally", block]) ],
              sequence [word "finally", block] ] ]),
    ("except_clause",
      sequence
        [ word "except",
          optional
            (sequence
              [ rule "test",
                optional (sequence [choice [word "as", op ","], rule "test"]) ]) ]),
    ("with_stmt",
      sequence
        [ word "with",
          rule "with_item",
          zeroOrMore (sequence [op ",", rule "with_item"]),
          block ]),
    ("with_item", sequence [rule "test", optional (sequence [word "as", rule "expr"])]),
    ("funcdef",
      sequence
        [ word "def",
          name,
          rule "parameters",
          optional (sequence [op "->", rule "test"]),
          block ]),
    ("parameters", sequence [op "(", optional (rule "typedargslist"), op ")"]),
    ("typedargslist", commaList (rule "typedarg")),
    ("typedarg",
      choice
        [ sequence [op "**", rule "tfpdef"],
          sequence [op "*", optional (rule "tfpdef")],
          op "/",
          sequence [rule "tfpdef", optional (sequence [op "=", rule "test"])] ]),
    ("tfpdef", sequence [name, optional (sequence [op ":", rule "test"])]),
    ("classdef",
      sequence
        [ word "class",
          name,
          optional (sequence [op "(", optional (rule "arglist"), op ")"]),
          block ]),
    ("decorated",
      sequence
        [ oneOrMore (rule "decorator"),
          choice [rule "classdef", rule "funcdef", rule "async_stmt"] ]),
    ("decorator", sequence [op "@", rule "namedexpr_test", newline]),
    ("async_stmt",
      sequence [word "async", choice [rule "funcdef", rule "with_stmt", rule "for_stmt"]]) ]

end BuiltIn
end Packrat
