import Causeway.Config.Reader
/-!
# Configuration files

Loading a configuration from a file, from what environment variables name, or from the nearest
configuration file at or above a directory.
-/
set_option autoImplicit false

namespace Causeway.Config

inductive File where
  | bytes (content : ByteArray)
  | missing
  | directory

inductive LoadError where
  | unreadable (path : String)
  | malformed (path : Option String)
deriving DecidableEq

namespace LoadError

def path? : LoadError → Option String
  | unreadable path => some path
  | malformed path => path

def summary : LoadError → String
  | unreadable path => "failed to read config " ++ path
  | malformed (some path) => "failed to parse config " ++ path
  | malformed none => "failed to parse config"

/-- What went wrong, up to the first colon, behind which the cause is named. A path may hold one. -/
def headline (e : LoadError) : String := (e.summary.splitOn ": ").headD ""

end LoadError

def ofDocument (document : String) : Except LoadError Config :=
  match ofToml? document with
  | some c => .ok c
  | none => .error (.malformed none)

def load (path : String) (file : File) : Except LoadError Config :=
  match file with
  | .bytes content =>
    match String.fromUTF8? content with
    | none => .error (.unreadable path)
    | some document =>
      match ofToml? document with
      | some c => .ok c
      | none => .error (.malformed (some path))
  | _ => .error (.unreadable path)

/-- The file that is named, or else the defaults; a level that is named overrides either. -/
def ofNamed (file : Option (String × File)) (level : Option String) :
    Except LoadError Config := do
  let c ← match file with
    | some (path, file) => load path file
    | none => pure {}
  match level with
  | some level => pure { c with logging := { c.logging with level } }
  | none => pure c

def fileName : String := ".pybridge.toml"

abbrev Directory := List (List String × File)

def partsOf (path : String) : List String :=
  (path.splitOn "/").filter fun part => part != "" && part != "."

def hasDirectory (files : Directory) (path : List String) : Bool :=
  path.isEmpty || files.any fun (p, f) => match f with
    | .missing => false
    | .directory => path.isPrefixOf p
    | .bytes _ => path.isPrefixOf p && path.length < p.length

/-- The path without its steps upwards, each of which has to leave a directory. -/
def resolve (files : Directory) (path : List String) : Option (List String) :=
  path.foldlM
    (fun done part =>
      if part = ".." then
        if hasDirectory files done && !done.isEmpty then some done.dropLast else none
      else some (done ++ [part])) []

def fileAt (files : Directory) (path : List String) : File :=
  match resolve files path with
  | none => .missing
  | some path => (files.lookup path).getD .missing

/-- A path and the directories above it, nearest first. Above the path itself, nothing is left of
the separators and of the parts that stay in place behind the last directory. -/
def ancestors (path : String) : List String :=
  let parts := path.splitOn "/"
  let ends := (List.range parts.length).filter fun i => !(["", "."].contains (parts.getD i ""))
  let above := ends.dropLast.reverse.map fun i => "/".intercalate (parts.take (i + 1))
  path :: above ++ (if ends.isEmpty then [] else [""])

def candidate (directory : String) : String :=
  if directory.isEmpty || directory.endsWith "/" then directory ++ fileName
  else directory ++ "/" ++ fileName

/-- The configuration in the nearest file, if there is a file; one that does not load is an error. A
path from the root leaves the directory. -/
def discover (files : Directory) (start : String) : Option (Except LoadError Config) :=
  let isFile (path : String) : Bool := match fileAt files (partsOf path) with
    | .bytes _ => true
    | _ => false
  if start.startsWith "/" then none
  else
    (((ancestors start).map candidate).find? isFile).map fun path =>
      load path (fileAt files (partsOf path))

end Causeway.Config
