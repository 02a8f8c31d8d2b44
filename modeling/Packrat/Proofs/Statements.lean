import Packrat.Proofs.Lookahead
import Packrat.Proofs.Masks

namespace Packrat

/-!
# Statements of the built-in grammar

The next token decides between the statements with a block, and between these and all others.  It
decides whether a block goes on with another statement, and whether there is another part behind it.
So it is known what a statement sees of what follows: a few reserved words could continue it.

The rest of the grammar stays within a line.
-/

namespace BuiltIn

open Expression

def wordTest (text : String) : TokenTest :=
  .literal .keyword (some text)

def opTest (text : String) : TokenTest :=
  .literal .operator (some text)

/-- What a statement without a block, or any of its parts that may stand first in it, begins with,
and an argument of a call too. -/
def lineStarts : List TokenTest :=
  [.literal .identifier none, .literal .literal none] ++
    ["(", "[", "\x7b", "...", "+", "-", "~", "*", "**"].map opTest ++
    ["None", "True", "False", "not", "lambda", "await", "yield", "pass", "break", "continue",
      "return", "raise", "global", "nonlocal", "del", "assert", "import", "from"].map wordTest

def blockStarts : List TokenTest :=
  opTest "@" ::
    ["if", "while", "for", "try", "with", "def", "class", "async"].map wordTest

/-- What goes on with a statement behind its block. -/
def blockContinues : List TokenTest :=
  ["elif", "else", "except", "finally"].map wordTest

def innerRules : List String :=
  ["annassign", "augassign", "comp_for", "comp_if", "comp_iter", "comp_op", "file_input",
    "subscript", "subscriptlist", "trailer", "typedarg", "typedargslist"]

/-- The tests that a rule begins with, where they are needed. -/
def starts : String -> Option (List TokenTest)
  | "statement" => some (blockStarts ++ lineStarts)
  | "suite" => some (.literal .newline none :: lineStarts)
  | "compound_stmt" => some blockStarts
  | "if_stmt" => some [wordTest "if"]
  | "while_stmt" => some [wordTest "while"]
  | "for_stmt" => some [wordTest "for"]
  | "try_stmt" => some [wordTest "try"]
  | "except_clause" => some [wordTest "except"]
  | "with_stmt" => some [wordTest "with"]
  | "funcdef" => some [wordTest "def"]
  | "classdef" => some [wordTest "class"]
  | "decorated" => some [opTest "@"]
  | "decorator" => some [opTest "@"]
  | "async_stmt" => some [wordTest "async"]
  | name => if innerRules.contains name then none else some lineStarts

/-- The tests that could continue a rule that goes beyond a line. -/
def continues : String -> Option (List TokenTest)
  | "statement" => some blockContinues
  | "compound_stmt" => some blockContinues
  | "if_stmt" => some blockContinues
  | "while_stmt" => some blockContinues
  | "for_stmt" => some blockContinues
  | "try_stmt" => some blockContinues
  | "decorated" => some blockContinues
  | "async_stmt" => some blockContinues
  | "file_input" => some []
  | "suite" => some []
  | "with_stmt" => some []
  | "funcdef" => some []
  | "classdef" => some []
  | "decorator" => some []
  | _ => none

/-- What is known of the rules of the built-in grammar. -/
def lookahead : Lookahead :=
  ⟨starts, continues⟩

theorem nullableRules_eq : grammar.nullableRules = [] := by decide +kernel

theorem looksAhead : grammar.LooksAhead lookahead := by
  have all : (blockRules ++ statementRules ++ valueRules).all
      (fun entry => lookahead.describes [] entry.1 entry.2) = true := by
    decide +kernel
  refine .of_describes fun target listed => ?_
  have defined : (target.name, target.definition) ∈ grammar.definitions :=
    List.mem_map_of_mem listed
  rw [nullableRules_eq, Rule.effective_of_not_mocked (not_mocked listed)]
  exact List.all_eq_true.mp all _ (mem_of_mem_definitions defined)

/-! ## Whole files -/

/-- What a file repeats: an empty line or a statement. -/
def fileItem : Expression :=
  .choice [newline, .rule "statement"]

theorem find?_file_input : grammar.find? "file_input" =
    some ⟨"file_input", .sequence [.zeroOrMore fileItem, .any .endOfFile], false⟩ := by
  decide +kernel

theorem fileItem_decided :
    (zeroOrMore fileItem).isDecided lookahead grammar.nullableRules "file_input" = true := by
  rw [nullableRules_eq]
  decide +kernel

theorem fileItem_continuations :
    fileItem.continuations lookahead grammar.nullableRules "file_input" = blockContinues := by
  rw [nullableRules_eq]
  decide +kernel

def endTest : TokenTest :=
  .literal .endOfFile none

end BuiltIn
end Packrat
