import Packrat.Files
import Packrat.Setting.Path
import Packrat.Toml.Document
import Packrat.Token.Stream

namespace Packrat

/-!
# Configuration

A configuration is layered: the defaults, then files, then single settings.  A later file wins over
an earlier one key by key, and single settings win over all files wherever they stand.
-/

/-- How a source is read and matched. -/
structure Config where
  tabSize : Nat := Token.defaultTabSize
  memoize : Bool := true
  deriving DecidableEq

/-- One layer of a configuration.  A file that is not required is passed over when it cannot be
read. -/
inductive Layer where
  | file (name : String) (required : Bool)
  | setting (path : String) (value : Setting)

inductive ConfigError where
  | path (path : String)
  | index (path : String)
  | unreadable (name : String)
  | malformed (name : String)
  | section (name : String)
  | value (path : String)
  deriving DecidableEq

namespace ConfigError

def message : ConfigError -> String
  | path text => s!"'{text}' is not a path to a setting"
  | index text => s!"an index of '{text}' is outside of its list"
  | unreadable name => s!"configuration file \"{name}\" could not be read"
  | malformed name => s!"configuration file \"{name}\" is not a TOML document"
  | .section name => s!"the settings of '{name}' are incomplete"
  | value text => s!"the value of '{text}' has the wrong type"

end ConfigError

namespace Config

def settings (config : Config) : Setting :=
  .table
    [ ("lexer", .table [("tab_size", .integer config.tabSize)]),
      ("engine", .table [("memoize", .truth config.memoize)]) ]

/-- The ending that the name of a configuration file may lack. -/
def fileEnding : String :=
  ".toml"

/-- The names that the name of a layer may stand for: the name as it is, or with the ending. -/
def fileNames (name : String) : List String :=
  name :: (Files.withEnding? fileEnding name).toList

def fileSettings (files : Files) (name : String) (required : Bool) :
    Except ConfigError (List (String × Setting)) :=
  let content := do
    let found ← (fileNames name).find? files.isFile
    (files.read found).toOption
  match content with
  | some text =>
    match Toml.parse? text with
    | some entries => .ok entries
    | none => .error (.malformed name)
  | none => if required then .error (.unreadable name) else .ok []

/-- Put a value over some settings.  A key in the form of a path is taken for one. -/
def assign (settings : Setting) (key : String) (value : Setting) : Except ConfigError Setting :=
  match Setting.path? key with
  | none => .ok (settings.merge key value)
  | some path =>
    match settings.set path value with
    | some settings => .ok settings
    | none => .error (.index key)

/-- Put entries over some settings one after the other. -/
def overlay (settings : Setting) (entries : List (String × Setting)) :
    Except ConfigError Setting :=
  entries.foldlM (fun settings (key, value) => assign settings key value) settings

/-- The single settings among some layers; each must have a path. -/
def overrides : List Layer -> Except ConfigError (List (String × Setting))
  | [] => .ok []
  | .file _ _ :: rest => overrides rest
  | .setting text value :: rest =>
    if (Setting.path? text).isSome then (overrides rest).map ((text, value) :: ·)
    else .error (.path text)

/-- The settings of the files among some layers, put over other settings. -/
def fileLayers (files : Files) : List Layer -> Setting -> Except ConfigError Setting
  | [], settings => .ok settings
  | .setting _ _ :: rest, settings => fileLayers files rest settings
  | .file name required :: rest, settings => do
    fileLayers files rest (← overlay settings (← fileSettings files name required))

/-- The only setting of a section: under its key in a table, or at the beginning of a list. -/
def only (name key : String) (settings : Setting) : Except ConfigError Setting :=
  let found :=
    match settings.entries.lookup name with
    | some (.table entries) => entries.lookup key
    | some (.list items) => items.head?
    | _ => none
  match found with
  | some value => .ok value
  | none => .error (.section name)

def typed {α : Type} (path : String) (value : Option α) : Except ConfigError α :=
  match value with
  | some value => .ok value
  | none => .error (.value path)

/-- The configuration that some settings describe. -/
def ofSettings (settings : Setting) : Except ConfigError Config := do
  let tabSize ← typed "lexer.tab_size" (← only "lexer" "tab_size" settings).toNat?
  let memoize ← typed "engine.memoize" (← only "engine" "memoize" settings).toBool?
  return { tabSize, memoize }

def load (files : Files) (layers : List Layer) : Except ConfigError Config := do
  let singles ← overrides layers
  let settings ← fileLayers files layers (settings {})
  ofSettings (← overlay settings singles)

end Config
end Packrat
