/-!
# TOML trees

A document is a tree of tables. A table arises from a header, from a longer header that passes
through it, or from a dotted key, and how it arose decides what may still be added to it: nothing is
ever defined twice, a header may complete a table that was only passed through, and dotted keys
extend only tables made by dotted keys.
-/

namespace Custody

/-- TOML values. Fractions and dates are checked but not kept. -/
inductive Toml where
  | string (value : String)
  | integer (value : Int)
  | bool (value : Bool)
  | fraction
  | date
  | array (items : List Toml)
  | table (entries : List (String × Toml))

namespace Toml

/-- How a table came about. -/
inductive Origin where
  | header
  /-- A longer header passes through it. -/
  | passed
  | dotted
deriving DecidableEq

inductive Node where
  | leaf (value : Toml)
  | table (origin : Origin) (entries : List (String × Node))
  /-- Tables with one repeated header, the latest first. -/
  | tables (last : List (String × Node)) (earlier : List (List (String × Node)))

abbrev Entries := List (String × Node)

namespace Node

mutual

/-- The value a node stands for. -/
def toToml : Node → Toml
  | .leaf value => value
  | .table _ entries => .table (entriesToToml entries)
  | .tables last earlier => .array ((tablesToToml earlier).reverse ++ [.table (entriesToToml last)])

def entriesToToml : List (String × Node) → List (String × Toml)
  | [] => []
  | (key, node) :: entries => (key, toToml node) :: entriesToToml entries

def tablesToToml : List (List (String × Node)) → List Toml
  | [] => []
  | entries :: rest => .table (entriesToToml entries) :: tablesToToml rest

end

end Node

namespace Entries

/-- Replace or add an entry. -/
def put (entries : Entries) (key : String) (node : Node) : Entries :=
  match entries with
  | [] => [(key, node)]
  | (head, old) :: rest =>
    if head = key then (key, node) :: rest else (head, old) :: put rest key node

/-- Add an entry under a new key. -/
def add? (entries : Entries) (key : String) (value : Toml) : Option Entries :=
  if (entries.lookup key).isSome then none else some (entries.put key (.leaf value))

/-- Add a value below dotted keys; `inDotted` says whether the table reached was made by dotted
keys. -/
def addBelow? : (path : List String) → (inDotted : Bool) → String → Toml → Entries → Option Entries
  | [], inDotted, key, value, entries => if inDotted then entries.add? key value else none
  | step :: path, _, key, value, entries => do
    let node ←
      match entries.lookup step with
      | none => (addBelow? path true key value []).map (.table .dotted)
      | some (.table .header _) => none
      | some (.table origin inner) =>
        (addBelow? path (origin = .dotted) key value inner).map (.table origin)
      | some (.tables last earlier) =>
        (addBelow? path false key value last).map (.tables · earlier)
      | some (.leaf _) => none
    return entries.put step node

/-- Add the value of a key of one or more parts. -/
def addKey? (entries : Entries) (path : List String) (key : String) (value : Toml) :
    Option Entries :=
  match path with
  | [] => entries.add? key value
  | path => entries.addBelow? path false key value

/-- Change the table that a header's path leads to; of repeated tables the latest is meant. -/
def within? (change : Entries → Option Entries) : (path : List String) → Entries → Option Entries
  | [], entries => change entries
  | step :: path, entries => do
    let node ←
      match entries.lookup step with
      | none => (within? change path []).map (.table .passed)
      | some (.table origin inner) => (within? change path inner).map (.table origin)
      | some (.tables last earlier) => (within? change path last).map (.tables · earlier)
      | some (.leaf _) => none
    return entries.put step node

/-- A table opened by a header: a new one, or one that was only passed through. -/
def openTable? (key : String) (fill : Entries → Option Entries) (entries : Entries) :
    Option Entries := do
  let start ←
    match entries.lookup key with
    | none => some []
    | some (.table .passed inner) => some inner
    | some _ => none
  return entries.put key (.table .header (← fill start))

/-- One more table of a repeated header. -/
def openRepeated? (key : String) (fill : Entries → Option Entries) (entries : Entries) :
    Option Entries := do
  let added ← fill []
  match entries.lookup key with
  | none => return entries.put key (.tables added [])
  | some (.tables last earlier) => return entries.put key (.tables added (last :: earlier))
  | some _ => none

end Entries

/-- A header with the keys that follow it, each as its path, its last part and its value. -/
structure Section where
  repeated : Bool
  path : List String
  key : String
  pairs : List (List String × String × Toml)

def addAll? (pairs : List (List String × String × Toml)) (entries : Entries) : Option Entries :=
  pairs.foldlM (fun (table : Entries) pair => table.addKey? pair.1 pair.2.1 pair.2.2) entries

/-- Add a section to a document. -/
def Section.addTo? (part : Section) (entries : Entries) : Option Entries :=
  let fill := addAll? part.pairs
  let change := if part.repeated then Entries.openRepeated? part.key fill
    else Entries.openTable? part.key fill
  entries.within? change part.path

/-- The tree of a document: the keys before any header, then the sections. -/
def assemble? (pairs : List (List String × String × Toml)) (sections : List Section) :
    Option (List (String × Toml)) := do
  let start ← addAll? pairs []
  let entries ← sections.foldlM (fun table part => part.addTo? table) start
  return Node.entriesToToml entries

end Toml

end Custody
