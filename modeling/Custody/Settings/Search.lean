import Custody.Files
import Custody.Path
import Custody.Settings
/-!
# Finding settings

Settings come from a named file, or else from the nearest settings file at or above the place where
a command starts. Without a file the defaults hold.
-/

namespace Custody

inductive SettingsFault where
  | unreadable (path : String)
  | malformed (path : String)
deriving DecidableEq

namespace SettingsFault

def message : SettingsFault → String
  | .unreadable path => "failed to read " ++ path
  | .malformed path => "failed to parse " ++ path

end SettingsFault

namespace Settings

def fileName : String := "slate.toml"

/-- The first of the directories that holds a settings file, as the path of that file. -/
def findIn {m : Type → Type} [Monad m] (files : Files m) : List String → m (Option String)
  | [] => return none
  | directory :: rest => do
    let candidate := Path.join directory fileName
    if ← files.isFile candidate then return some candidate
    else findIn files rest

/-- The nearest settings file at or above a path. -/
def find {m : Type → Type} [Monad m] (files : Files m) (start : String) : m (Option String) := do
  if ← files.isFile start then
    match Path.parent? start with
    | some directory => findIn files (Path.ancestors directory)
    | none => return none
  else findIn files (Path.ancestors start)

/-- Read the settings in a file. -/
def readFile {m : Type → Type} [Monad m] (files : Files m) (path : String) :
    m (Except SettingsFault Settings) := do
  match ← files.read path with
  | .error _ => return .error (.unreadable path)
  | .ok source =>
    match parse? source with
    | some settings => return .ok settings
    | none => return .error (.malformed path)

/-- The settings in effect and the file they come from, if there is one. -/
def load {m : Type → Type} [Monad m] (files : Files m) (named : Option String) (start : String) :
    m (Except SettingsFault (Option String × Settings)) := do
  let path ←
    match named with
    | some path => pure (some path)
    | none => find files start
  match path with
  | none => return .ok (none, {})
  | some path => return (← readFile files path).map (some path, ·)

end Settings

end Custody
