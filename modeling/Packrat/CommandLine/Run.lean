import Packrat.CommandLine.Request
import Packrat.Config
import Packrat.Format.Basic
import Packrat.Match.Parse
import Packrat.BuiltIn.Grammar

namespace Packrat
namespace CommandLine

/-!
# Running a command line

The program reads the files that its command line names, and prints one text or fails for one
cause.
-/

inductive RunError where
  | usage
  | configuration (error : ConfigError)
  | unreadable (error : ReadError)
  | format (error : UnknownFormat)
  | grammar (error : GrammarError)
  | lex (error : LexError)
  | noMatch (error : NoMatch)
  deriving DecidableEq

namespace RunError

def message : RunError -> String
  | usage => "Usage: pygrammar [OPTIONS] <tokens|match|rules> [ARGUMENTS]"
  | configuration error => s!"Configuration error: {error.message}"
  | unreadable error => s!"Error reading file: {error.message}"
  | format error => s!"Invalid format: {error.message}"
  | grammar error => s!"Grammar error: {error.message}"
  | lex error => s!"Tokenization error: {error.message}"
  | noMatch error => s!"No match: {error.message}"

def exitCode : RunError -> Nat
  | usage => 2
  | configuration (.index _) => 101
  | _ => 1

end RunError

def configFile : String :=
  "pygrammar.toml"

namespace Invocation

def layers (invocation : Invocation) : List Layer :=
  [.file configFile false] ++
    (invocation.config.map fun name => Layer.file name true).toList ++
    (if invocation.memoize then [] else [.setting "engine.memoize" (.truth false)])

/-- The names under which files may be read. -/
def fileNames (invocation : Invocation) : List String :=
  let configs := configFile :: invocation.config.toList
  configs.flatMap Config.fileNames ++ invocation.command.path?.toList

end Invocation

def showTokens (files : Files) (config : Config) (path format : String) :
    Except RunError String := do
  let source ← (files.read path).mapError .unreadable
  let format ← (Format.ofName format).mapError .format
  let tokens ← (Token.stream config.tabSize source).mapError .lex
  return format.showTokens tokens

/-- The match of a rule of the built-in grammar against a file in a format.  A tree that was
matched lies within its tokens, so that every format can show it. -/
def showMatch (files : Files) (config : Config) (path rule : String) (mocks : List String)
    (entirely : Bool) (format : String) : Except RunError String := do
  let source ← (files.read path).mapError .unreadable
  let format ← (Format.ofName format).mapError .format
  let grammar ← (BuiltIn.grammar.mockAll mocks).mapError .grammar
  (grammar.validate rule).mapError .grammar
  let tokens ← (Token.stream config.tabSize source).mapError .lex
  let tokens := tokens.toArray
  let matcher : Matcher := ⟨grammar, tokens, config.memoize, {}⟩
  let result := if entirely then matcher.matchEntirely rule else matcher.matchRule rule 0
  match ← result.1.mapError .grammar with
  | .success root => return (format.showParse? ⟨tokens, root⟩).getD ""
  | .failure failure => throw (.noMatch (.ofFailure failure tokens))

def ruleLine (rule : Rule) : String :=
  s!"{rule.name} := {rule.definition.display}\n"

def showRules (name : Option String) : Except RunError String :=
  match name with
  | some name => ((BuiltIn.grammar.get name).mapError .grammar).map ruleLine
  | none => .ok ("".intercalate (BuiltIn.grammar.rules.map ruleLine))

/-- What a command prints. -/
def Invocation.run (invocation : Invocation) (files : Files) : Except RunError String := do
  let config ← (Config.load files invocation.layers).mapError .configuration
  match invocation.command with
  | .tokens path format => showTokens files config path format
  | .parse path rule mocks entirely format =>
    showMatch files config path rule mocks entirely format
  | .rules name => showRules name

/-- What the program prints for a command line. -/
def run (words : List String) (files : Files) : Except RunError String :=
  match Request.ofWords? words with
  | none => .error .usage
  | some .version => .ok "pygrammar 0.1.0\n"
  | some (.run invocation) => invocation.run files

end CommandLine
end Packrat
