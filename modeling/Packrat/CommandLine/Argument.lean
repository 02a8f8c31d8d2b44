namespace Packrat
namespace CommandLine

/-!
# Arguments

The words of a command line are options, the values of options, and operands.  A value may be a
word of its own or be attached to its option, and after `--` every word is an operand.
-/

inductive Parameter where
  | config
  | noMemoize
  | version
  | format
  | rule
  | mock
  | partialMatch
  deriving DecidableEq

namespace Parameter

def long : Parameter -> String
  | config => "config"
  | noMemoize => "no-memoize"
  | version => "version"
  | format => "format"
  | rule => "rule"
  | mock => "mock"
  | partialMatch => "partial"

def letter? : Parameter -> Option Char
  | config => some 'c'
  | version => some 'V'
  | format => some 'f'
  | rule => some 'r'
  | mock => some 'm'
  | noMemoize | partialMatch => none

def takesValue : Parameter -> Bool
  | config | format | rule | mock => true
  | noMemoize | version | partialMatch => false

def isRepeatable (parameter : Parameter) : Bool :=
  parameter == mock

end Parameter

/-- A part of a command line: an option with its value, which is empty for an option without one,
or an operand. -/
inductive Argument where
  | option (parameter : Parameter) (value : String)
  | operand (word : String)
  deriving DecidableEq

namespace Argument

def isOption (parameter : Parameter) : Argument -> Bool
  | option other _ => other == parameter
  | operand _ => false

def valuesOf (parameter : Parameter) (arguments : List Argument) : List String :=
  arguments.filterMap fun argument =>
    match argument with
    | option other value => if other = parameter then some value else none
    | operand _ => none

def operands (arguments : List Argument) : List String :=
  arguments.filterMap fun argument =>
    match argument with
    | option _ _ => none
    | operand word => some word

end Argument

/-- Why the reading of a command line ends early: it has a fault, or it asks for the version. -/
inductive Halt where
  | usage
  | version
  deriving DecidableEq

/-- A word by itself: an option with its attached value, or anything else. -/
inductive Word where
  | option (parameter : Parameter) (value : Option String)
  | plain

def isOptionLike (word : String) : Bool :=
  match word.toList with
  | '-' :: _ :: _ => true
  | _ => false

/-- A long option: its name, perhaps with an equals sign and a value. -/
def longOption? (known : List Parameter) (text : List Char) : Option Word :=
  let name := String.ofList (text.takeWhile (· != '='))
  let value :=
    match text.dropWhile (· != '=') with
    | _ :: value => some (String.ofList value)
    | [] => none
  match known.find? (·.long == name) with
  | some parameter =>
    if parameter.takesValue || value.isNone then some (.option parameter value) else none
  | none => none

/-- A short option: its letter, perhaps with a value, which may follow an equals sign. -/
def shortOption? (known : List Parameter) (letter : Char) (text : List Char) : Option Word :=
  let value :=
    match text with
    | [] => none
    | '=' :: value => some (String.ofList value)
    | value => some (String.ofList value)
  match known.find? (·.letter? == some letter) with
  | some parameter => some (.option parameter (if parameter.takesValue then value else none))
  | none => none

/-- How a word is read where some options are known. -/
def wordOf? (known : List Parameter) (word : String) : Option Word :=
  match word.toList with
  | '-' :: '-' :: text => longOption? known text
  | '-' :: letter :: text => shortOption? known letter text
  | _ => some .plain

/-- One more option after some arguments.  An option that is asked for twice is a fault. -/
def withOption (arguments : List Argument) (parameter : Parameter) (value : String) :
    Except Halt (List Argument) :=
  if parameter = .version then .error .version
  else if !parameter.isRepeatable && arguments.any (·.isOption parameter) then .error .usage
  else .ok (arguments ++ [.option parameter value])

/-- The arguments of some words after those that have been read.  With `early` the first operand
ends the reading, and the words from there on are left. -/
def argumentsOf (known : List Parameter) (early : Bool) (read : List Argument) :
    List String -> Except Halt (List Argument × List String)
  | [] => .ok (read, [])
  | "--" :: rest => .ok (read ++ rest.map .operand, [])
  | word :: rest =>
    match wordOf? known word with
    | none => .error .usage
    | some .plain =>
      if early then .ok (read, word :: rest)
      else argumentsOf known early (read ++ [.operand word]) rest
    | some (.option parameter (some value)) => do
      argumentsOf known early (← withOption read parameter value) rest
    | some (.option parameter none) =>
      if parameter.takesValue then
        match rest with
        | [] => .error .usage
        | value :: rest => do
          if isOptionLike value then throw .usage
          argumentsOf known early (← withOption read parameter value) rest
      else do
        argumentsOf known early (← withOption read parameter "") rest

end CommandLine
end Packrat
