import Custody.Files
import Custody.Path
/-!
# Files in memory

A directory tree given by its files: a directory is what some file's path passes through. Paths may
lead out of the tree. The directories above it are there, and nothing else outside is known, so a
file stands there only once it was written.
-/

namespace Custody

/-- Files by the parts of their paths. A path out of the tree starts with the steps up, and those
stand nowhere else in it. -/
structure Workspace where
  files : List (List String × String) := []

namespace Workspace

/-- What stands at a path. -/
inductive Found where
  | file (place : List String) (text : String)
  | directory
  /-- Nothing, though its directory is there. -/
  | vacant (place : List String)
  | fault (fault : FileFault)

/-- The longest name of a file, in bytes. -/
def maxNameBytes : Nat := 255

variable (workspace : Workspace)

def text? (place : List String) : Option String :=
  workspace.files.lookup place

/-- The tree itself, or a directory above it. -/
def isAbove (place : List String) : Bool := place.all (· = "..")

/-- Some file stands below the place. The tree and what is above it are always there. -/
def isDirectory (place : List String) : Bool :=
  isAbove place ||
    workspace.files.any fun file => place.isPrefixOf file.1 && place.length < file.1.length

/-- Follow the parts of a path from a directory. -/
def walk (workspace : Workspace) : (directory : List String) → List String → Found
  | _, [] => .directory
  | directory, part :: parts =>
    if part = "" || part = "." then walk workspace directory parts
    else if part = ".." then
      walk workspace (if isAbove directory then directory ++ [".."] else directory.dropLast) parts
    else
      let place := directory ++ [part]
      if maxNameBytes < part.utf8ByteSize then .fault .nameTooLong
      else if workspace.isDirectory place then walk workspace place parts
      else
        match workspace.text? place, parts with
        | some text, [] => .file place text
        | some _, _ :: _ => .fault .notDirectory
        | none, [] => .vacant place
        -- A name to be created cannot end in a slash.
        | none, parts => .fault (if parts.all (· = "") then .isDirectory else .missing)

/-- What stands at a path. Of the paths that start at the root only the root itself is known. -/
def find (path : String) : Found :=
  if path.isEmpty then .fault .missing
  else if path.startsWith "/" then
    if (Path.parts path).all fun part => part = "" || part = "." || part = ".." then .directory
    else .fault .missing
  else workspace.walk [] (Path.parts path)

def isFile (path : String) : Bool :=
  match workspace.find path with
  | .file _ _ => true
  | _ => false

def isPresent (path : String) : Bool :=
  match workspace.find path with
  | .file _ _ | .directory => true
  | _ => false

def read (path : String) : Except FileFault String :=
  match workspace.find path with
  | .file _ text => .ok text
  | .directory => .error .isDirectory
  | .vacant _ => .error .missing
  | .fault .isDirectory => .error .missing
  | .fault fault => .error fault

/-- Put a text at a place, in the order of the paths. -/
def put (place : List String) (text : String) :
    List (List String × String) → List (List String × String)
  | [] => [(place, text)]
  | file :: files =>
    if file.1 = place then (place, text) :: files
    else if place < file.1 then (place, text) :: file :: files
    else file :: put place text files

def write (path text : String) : Except FileFault Workspace :=
  match workspace.find path with
  | .file place _ | .vacant place => .ok ⟨put place text workspace.files⟩
  | .directory => .error .isDirectory
  | .fault fault => .error fault

/-- The workspace that holds the given files. -/
def ofList (files : List (String × String)) : Workspace :=
  ⟨files.foldl (fun files file => put (Path.parts file.1) file.2 files) []⟩

/-- Files in the tree that an earlier state lacks or holds with another text. -/
def changes (earlier later : Workspace) : List (String × String) :=
  (later.files.filter fun file =>
    file.1.head? ≠ some ".." && earlier.text? file.1 ≠ some file.2).map
      fun file => ("/".intercalate file.1, file.2)

/-- The operations commands use, on a workspace as state. -/
def operations : Files (StateM Workspace) where
  isFile path := do return (← get).isFile path
  isPresent path := do return (← get).isPresent path
  read path := do return (← get).read path
  write path text := do
    match (← get).write path text with
    | .ok workspace =>
      set workspace
      return .ok ()
    | .error fault => return .error fault

end Workspace

end Custody
