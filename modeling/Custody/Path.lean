/-!
# Paths

Paths as they are written, divided by slashes. Empty parts mean nothing, and neither does a part
that is one dot, except in front.
-/

namespace Custody.Path

/-- The parts between slashes. -/
def split : List Char → List (List Char)
  | [] => [[]]
  | c :: rest =>
    if c = '/' then [] :: split rest
    else
      match split rest with
      | part :: parts => (c :: part) :: parts
      | [] => [[c]]

def parts (path : String) : List String := (split path.toList).map String.ofList

/-- A path without the slashes and the lone dots at its end, from its last character back. -/
def dropTail : List Char → List Char
  | [] => []
  | ['/'] => ['/']
  | '/' :: rest => dropTail rest
  | '.' :: '/' :: rest =>
    if rest.isEmpty then ['/'] else dropTail rest
  | chars => chars

/-- The directory a path stands in. The empty path and the root have none. -/
def parent? (path : String) : Option String :=
  match dropTail path.toList.reverse with
  | [] => none
  | ['/'] => none
  | chars =>
    let outer := chars.dropWhile (· ≠ '/')
    some (String.ofList (dropTail outer).reverse)

/-- A name in a directory. -/
def join (directory name : String) : String :=
  if directory.isEmpty || directory.endsWith "/" then directory ++ name
  else directory ++ "/" ++ name

/-- A directory and those above it, the nearest first. -/
def ancestorsWithin : Nat → String → List String
  | 0, path => [path]
  | steps + 1, path =>
    match parent? path with
    | some outer => path :: ancestorsWithin steps outer
    | none => [path]

/-- Each directory above is written shorter, so there are no more of them than characters. -/
def ancestors (path : String) : List String := ancestorsWithin path.length path

end Custody.Path
