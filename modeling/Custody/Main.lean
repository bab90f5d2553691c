import Custody.CommandLine.Commands
/-!
# The program

Commands on the files of a disk.
-/

namespace Custody

/-- What the system says about a file. -/
def FileFault.ofError : IO.Error → FileFault
  | .noFileOrDirectory _ _ _ => .missing
  | .inappropriateType _ code details =>
    if code = 20 then .notDirectory
    else if code = 21 then .isDirectory
    else .other details
  | error => .other (toString error)

/-- Read a file of the disk. -/
def readDisk (path : String) : IO (Except FileFault String) := do
  try
    return .ok (← IO.FS.readFile path)
  catch error => return .error (.ofError error)

def writeDisk (path text : String) : IO (Except FileFault Unit) := do
  try
    IO.FS.writeFile path text
    return .ok ()
  catch error => return .error (.ofError error)

/-- The files of the disk. -/
def disk : Files IO where
  isFile path := do return (← readDisk path).isOk
  isPresent path := do
    match ← readDisk path with
    | .error .missing | .error .notDirectory => return false
    | _ => return true
  read := readDisk
  write := writeDisk

end Custody

open Custody

def main (words : List String) : IO UInt32 := do
  let ending ← carryOut disk words
  match ending with
  | .usage => IO.eprint helpText
  | .finished outcome =>
    IO.print outcome.printed
    if let some error := outcome.error then IO.eprintln ("Error: " ++ error.message)
  return ending.exitCode.toUInt32
