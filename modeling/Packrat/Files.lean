namespace Packrat

/-!
# Files of a directory

The files that a program can see, under names relative to a working directory.  A path is walked
step by step, and a directory is there when a file is in it.  Outside of the working directory there
are directories but nothing in them is known.
-/

/-- What stands under a name: the content of a file, or a directory. -/
inductive FileEntry where
  | content (bytes : ByteArray)
  | directory

/-- Files and directories by their names. -/
structure Files where
  entries : List (String × FileEntry) := []

inductive ReadError where
  | missing
  | insideFile
  | directory
  | nameTooLong
  | notText
  deriving DecidableEq

namespace ReadError

def message : ReadError -> String
  | missing => "No such file or directory (os error 2)"
  | insideFile => "Not a directory (os error 20)"
  | directory => "Is a directory (os error 21)"
  | nameTooLong => "File name too long (os error 36)"
  | notText => "stream did not contain valid UTF-8"

end ReadError

namespace Files

/-- Whether a step of a path stays in its directory. -/
def staysInPlace (step : String) : Bool :=
  step == "" || step == "."

def stepsOf (path : String) : List String :=
  path.splitOn "/"

def namesOf (path : String) : List String :=
  (stepsOf path).filter (!staysInPlace ·)

/-- The directory above a directory.  A directory is given by the names on the way to it, unless it
is outside of the working directory. -/
def above : Option (List String) -> Option (List String)
  | none | some [] => none
  | some names => some names.dropLast

/-- What stands at the end of the way that some names describe. -/
def entryAt? (files : Files) (names : List String) : Option FileEntry :=
  let known : List (List String × FileEntry) :=
    files.entries.map fun (name, entry) => (namesOf name, entry)
  match known.lookup names with
  | some entry => some entry
  | none => if known.any fun (name, _) => names.isPrefixOf name then some .directory else none

/-- The most bytes of a name. -/
def nameLimit : Nat := 255

def pathLimit : Nat := 4095

/-- What stands where some steps lead from a directory. -/
def walk (files : Files) (here : Option (List String)) :
    List String -> Except ReadError FileEntry
  | [] => .ok .directory
  | step :: rest =>
    if staysInPlace step then files.walk here rest
    else if step == ".." then files.walk (above here) rest
    else if nameLimit < step.utf8ByteSize then .error .nameTooLong
    else
      let next := here.map (· ++ [step])
      match next.bind files.entryAt? with
      | some .directory => files.walk next rest
      | some (.content bytes) =>
        if rest.isEmpty then .ok (.content bytes) else .error .insideFile
      | none => .error .missing

/-- What stands under a path: what is known under that very name, or what a walk comes to. -/
def find (files : Files) (path : String) : Except ReadError FileEntry :=
  match files.entries.lookup path with
  | some entry => .ok entry
  | none =>
    if path.isEmpty then .error .missing
    else if pathLimit < path.utf8ByteSize then .error .nameTooLong
    else files.walk (if path.startsWith "/" then none else some []) (stepsOf path)

def isFile (files : Files) (path : String) : Bool :=
  match files.find path with
  | .ok (.content _) => true
  | _ => false

def read (files : Files) (path : String) : Except ReadError String := do
  match ← files.find path with
  | .directory => throw .directory
  | .content bytes =>
    match String.fromUTF8? bytes with
    | some text => return text
    | none => throw .notText

/-- A path with an ending after its last name; there is none for a path that does not end in a
name. -/
def withEnding? (ending path : String) : Option String :=
  match (stepsOf path).reverse.dropWhile staysInPlace with
  | [] => none
  | last :: before =>
    if last == ".." then none
    else some ("/".intercalate (before.reverse ++ [last ++ ending]))

end Files
end Packrat
