import Packrat.Match.Parse

namespace Packrat
namespace Sample

/-!
# Sample sources

A small collection of sources for trying out rules, each under the name of a file.
-/

def ofLines (lines : List String) : String :=
  "".intercalate (lines.map (· ++ "\n"))

def compoundStatements : String :=
  ofLines
    [ "import os",
      "from collections import OrderedDict as od",
      "",
      "",
      "@decorator",
      "@module.decorator(arg, key=value)",
      "class Example(Base, metaclass=Meta):",
      "    \"\"\"Docstring.\"\"\"",
      "",
      "    count: int = 0",
      "",
      "    def __init__(self, name, *args, default=None, **kwargs) -> None:",
      "        self.name = name",
      "        self.items = [item for item in args if item]",
      "",
      "    async def fetch(self, url):",
      "        async with session.get(url) as response:",
      "            return await response.json()",
      "",
      "",
      "def process(values):",
      "    total = 0",
      "    for value in values:",
      "        if value < 0:",
      "            continue",
      "        elif value == 0:",
      "            break",
      "        else:",
      "            total += value",
      "    else:",
      "        print(\"done\")",
      "",
      "    while total > 100:",
      "        total //= 2",
      "",
      "    try:",
      "        result = values[0] / total",
      "    except ZeroDivisionError as err:",
      "        raise ValueError(\"empty\") from err",
      "    except (TypeError, KeyError):",
      "        pass",
      "    else:",
      "        print(result)",
      "    finally:",
      "        cleanup()",
      "",
      "    with open(\"out.txt\", \"w\") as handle, lock:",
      "        handle.write(str(total))",
      "",
      "    return total" ]

def inconsistentDedent : String :=
  ofLines
    [ "if ready:",
      "        go()",
      "    stop()" ]

/-- The sample `mocked_except_clause.txt`, which has no line break. -/
def mockedExceptClause : String :=
  "except test as test"

def narrowTabs : String :=
  ofLines
    [ "[lexer]",
      "tab_size = 4" ]

def simpleStatements : String :=
  ofLines
    [ "x = 1",
      "a, b = b, a",
      "x += 1",
      "y: list = []",
      "del a[0], b.c",
      "pass",
      "assert x, \"message\"",
      "global counter",
      "handler = lambda x, *rest, y=1, **kw: (x, rest)",
      "values = [i * 2 for i in range(10) if i % 2]",
      "mapping = \x7b\"a\": 1, **other\x7d",
      "unique = \x7b1, 2, 3\x7d",
      "choice = a if b else c",
      "call(*args, **kwargs)",
      "view = data[1:2, ::3]",
      "flag = not a is not b",
      "text = \"adjacent\" 'strings'",
      "total = (1 +",
      "         2)",
      "other = 3 + \\",
      "    4",
      "import os.path as p",
      "from . import (a, b,)",
      "from ..pkg import *",
      "print(x); print(y)" ]

def tabIndented : String :=
  ofLines
    [ "if x:",
      "\ta = 1",
      "    b = 2" ]

def files : List (String × String) :=
  [ ("compound_statements.py", compoundStatements),
    ("inconsistent_dedent.py", inconsistentDedent),
    ("mocked_except_clause.txt", mockedExceptClause),
    ("pygrammar.toml", narrowTabs),
    ("simple_statements.py", simpleStatements),
    ("tab_indented.txt", tabIndented) ]

/-- Why a sample could not be used. -/
inductive SampleError where
  | notFound
  | unreadable
  | parse (error : ParseError)
  deriving DecidableEq

/-- The names of the samples that are program files, in ascending order. -/
def names : List String :=
  (files.map Prod.fst).filter (·.endsWith ".py")

def load (name : String) : Except SampleError String :=
  if name.isEmpty then .error .unreadable
  else
    match files.lookup name with
    | some text => .ok text
    | none => .error .notFound

def tokens (name : String) : Except SampleError (List Token) := do
  let source ← load name
  (Token.ofSource source).mapError fun error => .parse (.lex error)

def parse (name : String) (grammar : Grammar) (rule : String) : Except SampleError Parse := do
  let source ← load name
  (grammar.parse rule source).mapError .parse

end Sample
end Packrat
