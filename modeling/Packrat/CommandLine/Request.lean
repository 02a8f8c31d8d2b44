import Packrat.CommandLine.Argument

namespace Packrat
namespace CommandLine

/-!
# Requests

A request is what a command line asks for: the version, or a command with its options.  Options
that concern the whole program may stand before the name of the command or after it; after it they
win.
-/

inductive Command where
  | tokens (path format : String)
  | parse (path rule : String) (mocks : List String) (entirely : Bool) (format : String)
  | rules (name : Option String)
  deriving DecidableEq

namespace Command

def path? : Command -> Option String
  | tokens path _ => some path
  | parse path _ _ _ _ => some path
  | rules _ => none

end Command

/-- A command with the options of the whole program. -/
structure Invocation where
  config : Option String
  memoize : Bool
  command : Command
  deriving DecidableEq

inductive Request where
  | version
  | run (invocation : Invocation)
  deriving DecidableEq

/-- The options of the whole program. -/
def generalOptions : List Parameter :=
  [.config, .noMemoize]

/-- The options of each command besides those of the whole program. -/
def commandOptions? : String -> Option (List Parameter)
  | "tokens" => some [.format]
  | "match" => some [.format, .rule, .mock, .partialMatch]
  | "rules" => some []
  | _ => none

def valueOr (default : String) (parameter : Parameter) (arguments : List Argument) : String :=
  (Argument.valuesOf parameter arguments).getLastD default

/-- The format that is asked for, or else the tree. -/
def formatName (arguments : List Argument) : String :=
  valueOr "tree" .format arguments

/-- The command of a name and its arguments. -/
def commandOf? (name : String) (arguments : List Argument) : Option Command :=
  match name, Argument.operands arguments with
  | "tokens", [path] => some (.tokens path (formatName arguments))
  | "match", [path] =>
    let entirely := !arguments.any (·.isOption .partialMatch)
    some (.parse path (valueOr "file_input" .rule arguments) (Argument.valuesOf .mock arguments)
      entirely (formatName arguments))
  | "rules", [] => some (.rules none)
  | "rules", [rule] => some (.rules (some rule))
  | _, _ => none

def invocationOf (words : List String) : Except Halt Invocation := do
  let (general, rest) ← argumentsOf (.version :: generalOptions) true [] words
  match Argument.operands general, rest with
  | [], name :: rest =>
    let some options := commandOptions? name | throw .usage
    let (given, _) ← argumentsOf (generalOptions ++ options) false [] rest
    let some command := commandOf? name given | throw .usage
    let configs := Argument.valuesOf .config given ++ Argument.valuesOf .config general
    let memoize := !(general ++ given).any (·.isOption .noMemoize)
    return ⟨configs.head?, memoize, command⟩
  | _, _ => throw .usage

namespace Request

/-- The request of a command line, unless the line has a fault. -/
def ofWords? (words : List String) : Option Request :=
  match invocationOf words with
  | .ok invocation => some (.run invocation)
  | .error .version => some .version
  | .error .usage => none

end Request
end CommandLine
end Packrat
