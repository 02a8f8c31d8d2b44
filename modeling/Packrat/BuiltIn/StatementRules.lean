import Packrat.BuiltIn.ValueRules

namespace Packrat
namespace BuiltIn

/-!
# Rules of statements without a block

The statements that fit on one line and may stand side by side between semicolons.
-/

open Expression

def names : Expression :=
  sequence [name, zeroOrMore (sequence [op ",", name])]

def augmentedAssignments : List String :=
  ["+=", "-=", "*=", "@=", "/=", "%=", "&=", "|=", "^=", "<<=", ">>=", "**=", "//="]

def statementRules : List (String × Expression) :=
  [ ("stmt_list",
      sequence
        [ rule "simple_stmt",
          zeroOrMore (sequence [op ";", rule "simple_stmt"]),
          optional (op ";") ]),
    ("simple_stmt",
      choice
        [ rule "pass_stmt",
          rule "break_stmt",
          rule "continue_stmt",
          rule "return_stmt",
          rule "raise_stmt",
          rule "global_stmt",
          rule "nonlocal_stmt",
          rule "del_stmt",
          rule "assert_stmt",
          rule "import_stmt",
          rule "yield_stmt",
          rule "expression_stmt" ]),
    ("pass_stmt", word "pass"),
    ("break_stmt", word "break"),
    ("continue_stmt", word "continue"),
    ("return_stmt", sequence [word "return", optional (rule "testlist_star_expr")]),
    ("raise_stmt",
      sequence
        [ word "raise",
          optional (sequence [rule "test", optional (sequence [word "from", rule "test"])]) ]),
    ("global_stmt", sequence [word "global", names]),
    ("nonlocal_stmt", sequence [word "nonlocal", names]),
    ("del_stmt", sequence [word "del", rule "exprlist"]),
    ("assert_stmt",
      sequence [word "assert", rule "test", optional (sequence [op ",", rule "test"])]),
    ("yield_stmt", rule "yield_expr"),
    ("import_stmt", choice [rule "import_name", rule "import_from"]),
    ("import_name", sequence [word "import", rule "dotted_as_names"]),
    ("import_from",
      sequence
        [ word "from",
          choice
            [ sequence [zeroOrMore (choice [op ".", op "..."]), rule "dotted_name"],
              oneOrMore (choice [op ".", op "..."]) ],
          word "import",
          choice
            [ op "*",
              sequence [op "(", rule "import_as_names", op ")"],
              rule "import_as_names" ] ]),
    ("import_as_name", sequence [name, optional (sequence [word "as", name])]),
    ("dotted_as_name", sequence [rule "dotted_name", optional (sequence [word "as", name])]),
    ("import_as_names", commaList (rule "import_as_name")),
    ("dotted_as_names",
      sequence [rule "dotted_as_name", zeroOrMore (sequence [op ",", rule "dotted_as_name"])]),
    ("dotted_name", sequence [name, zeroOrMore (sequence [op ".", name])]),
    ("expression_stmt",
      sequence
        [ rule "testlist_star_expr",
          choice
            [ rule "annassign",
              sequence [rule "augassign", choice [rule "yield_expr", rule "testlist"]],
              zeroOrMore
                (sequence [op "=", choice [rule "yield_expr", rule "testlist_star_expr"]]) ] ]),
    ("annassign",
      sequence
        [ op ":",
          rule "test",
          optional (sequence [op "=", choice [rule "yield_expr", rule "testlist_star_expr"]]) ]),
    ("augassign", choice (augmentedAssignments.map op)) ]

end BuiltIn
end Packrat
