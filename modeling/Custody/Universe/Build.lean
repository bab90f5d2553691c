import Custody.Universe.Cycles
/-!
# Building a universe

Struct headers are registered first, so that fields may mention structs declared later; then fields
and signatures are resolved against the headers. Every problem is collected, and of two declarations
of one name the first stands.
-/

namespace Custody

/-- The names that occurred before, each time they occur again. -/
def repeatedNames (seen : List String) : List String → List String
  | [] => []
  | name :: names =>
    if name ∈ seen then name :: repeatedNames seen names else repeatedNames (name :: seen) names

/-- Type parameters of one declaration have different names. -/
def typeParamFaults (location : Location) (params : List TypeParam) : List Diagnostic :=
  (repeatedNames [] (params.map (·.name))).map fun name => ⟨location, .duplicate name⟩

namespace Universe

/-! ## Structs -/

/-- Struct headers so far, the declarations that were registered, and the problems found. -/
structure Headers where
  structs : Table StructId StructDef := ∅
  registered : List (String × StructDecl) := []
  problems : List Diagnostic := []

def Headers.add (module : String) (headers : Headers) (decl : StructDecl) : Headers :=
  let id : StructId := ⟨module, decl.name⟩
  let location : Location := { module := module, site := .struct decl.name }
  if headers.structs.contains id then
    { headers with problems := headers.problems ++ [⟨location, .duplicate id.render⟩] }
  else
    { structs := headers.structs.insert id
        { id := id, typeParams := decl.typeParams, abilities := decl.abilities }
      registered := headers.registered ++ [(module, decl)]
      problems := headers.problems ++ typeParamFaults location decl.typeParams }

def headers (modules : List Module) : Headers :=
  modules.foldl (fun state module => module.structs.foldl (Headers.add module.name) state) {}

/-- Resolve the fields of a struct; a repeated or unresolvable field is reported and left out. -/
def resolveFields (u : Universe) (module : String) (decl : StructDecl) (seen : List String) :
    List TypedName → List (String × Ty) × List Diagnostic
  | [] => ([], [])
  | field :: fields =>
    let location : Location := { module := module, site := .structField decl.name field.name }
    if field.name ∈ seen then
      let rest := resolveFields u module decl seen fields
      (rest.1, ⟨location, .duplicate field.name⟩ :: rest.2)
    else
      let rest := resolveFields u module decl (field.name :: seen) fields
      match u.resolveAt module decl.typeParams false field.type with
      | .ok ty => ((field.name, ty) :: rest.1, rest.2)
      | .error fault => (rest.1, ⟨location, fault⟩ :: rest.2)

/-- The definition a registered declaration stands for, and the problems of its fields. -/
def defineStruct (u : Universe) (module : String) (decl : StructDecl) :
    StructDef × List Diagnostic :=
  let fields := u.resolveFields module decl [] decl.fields
  ({ id := ⟨module, decl.name⟩, typeParams := decl.typeParams, abilities := decl.abilities,
     fields := fields.1 },
    fields.2)

/-! ## Functions -/

/-- The type at a position of a signature; one that cannot be resolved counts as unit, so that the
number of parameters stays what callers see. -/
def resolveInSignature (u : Universe) (module : String) (params : List TypeParam)
    (location : Location) (type : TypeExpr) : Ty × List Diagnostic :=
  match u.resolveAt module params true type with
  | .ok ty => (ty, [])
  | .error fault => (.unit, [⟨location, fault⟩])

/-- The signature a declaration stands for, and the problems of its types. -/
def defineFunction (u : Universe) (module : String) (decl : FunctionDecl) :
    Signature × List Diagnostic :=
  let id : FunctionId := ⟨module, decl.name⟩
  let params := decl.params.map fun param =>
    (param.name,
      u.resolveInSignature module decl.typeParams (.inFunction id (.param param.name)) param.type)
  let ret :=
    match decl.ret with
    | none => (Ty.unit, [])
    | some type =>
      u.resolveInSignature module decl.typeParams (.inFunction id .returnType) type
  ({ id := id, typeParams := decl.typeParams,
     params := params.map fun param => (param.1, param.2.1), ret := ret.1,
     acquires := decl.acquires },
    typeParamFaults (.inFunction id .signature) decl.typeParams ++
      params.flatMap (fun param => param.2.2) ++ ret.2)

/-- Register a function unless its name is taken. -/
def addFunction (module : String) (state : Universe × List Diagnostic) (decl : FunctionDecl) :
    Universe × List Diagnostic :=
  let id : FunctionId := ⟨module, decl.name⟩
  if state.1.functions.contains id then
    (state.1, state.2 ++ [⟨.inFunction id .signature, .duplicate id.render⟩])
  else
    let defined := state.1.defineFunction module decl
    ({ state.1 with functions := state.1.functions.insert id defined.1 }, state.2 ++ defined.2)

/-! ## The whole -/

/-- A struct that contains itself, as a diagnostic. -/
def cycleDiagnostic (id : StructId) : Diagnostic :=
  ⟨{ module := id.module, site := .struct id.name }, .shape (.containsItself id)⟩

/-- The universe of a declaration set together with everything wrong with its types. -/
def build (modules : List Module) : Universe × List Diagnostic :=
  let headers := headers modules
  let outline : Universe := { structs := headers.structs }
  let defined := headers.registered.map fun entry => outline.defineStruct entry.1 entry.2
  let structs : Universe :=
    { structs :=
        defined.foldl (fun table entry => table.insert entry.1.id entry.1) headers.structs }
  let complete := modules.foldl
    (fun state module => module.functions.foldl (addFunction module.name) state)
    (structs, headers.problems ++ defined.flatMap (·.2))
  (complete.1, complete.2 ++ complete.1.cyclicStructs.map cycleDiagnostic)

end Universe

end Custody
