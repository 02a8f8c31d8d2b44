import Packrat.Format.Boxes
import Packrat.Format.Json
import Packrat.Format.Yaml

namespace Packrat

/-!
# Output formats
-/

inductive Format where
  | tree
  | json
  | yaml
  deriving DecidableEq, Inhabited

structure UnknownFormat where
  name : String
  deriving DecidableEq

namespace UnknownFormat

def message (error : UnknownFormat) : String :=
  s!"unknown format '{error.name}' (expected tree, json or yaml)"

end UnknownFormat

namespace Format

def all : List Format :=
  [tree, json, yaml]

def name : Format -> String
  | tree => "tree"
  | json => "json"
  | yaml => "yaml"

/-- The format of a name, in whatever case its ASCII letters are. -/
def ofName (name : String) : Except UnknownFormat Format :=
  match all.find? fun format => format.name == String.ofList (name.toList.map Char.toLower) with
  | some format => .ok format
  | none => .error ⟨name⟩

def showTokens (format : Format) (tokens : List Token) : String :=
  match format with
  | tree => Drawing.ofTokens tokens
  | json => (Document.ofTokens tokens).json
  | yaml => (Document.ofTokens tokens).yaml

/-- A parse in a format, if its nodes lie within its tokens as far as the format looks at them. -/
def showParse? (format : Format) (parse : Parse) (sum : Nat -> Nat -> Nat := (· + ·)) :
    Option String :=
  match format with
  | tree => Drawing.ofParse? parse sum
  | json => some (Document.ofParse parse).json
  | yaml => some (Document.ofParse parse).yaml

end Format
end Packrat
