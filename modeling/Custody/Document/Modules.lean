import Custody.Document.Bodies
/-!
# Documents of modules

A module is written with all its fields, and without its address if it has none. Reading takes more:
what has a default may be left out.
-/

namespace Custody

def TypeParam.toJson (param : TypeParam) : Json :=
  .record [("name", .text param.name), ("constraints", param.constraints.toJson),
    ("phantom", .bool param.phantom)]

def TypeParam.decoder : Decoder TypeParam :=
  .record ["name", "constraints", "phantom"] fun fields => do
    return {
      name := ← fields.get "name" .text
      constraints := ← fields.getD "constraints" AbilitySet.decoder .none
      phantom := ← fields.getD "phantom" .flag false }

def TypedName.toJson (field : TypedName) : Json :=
  .record [("name", .text field.name), ("ty", field.type.toJson)]

def TypedName.decoder : Decoder TypedName :=
  .record ["name", "ty"] fun fields => do
    return ⟨← fields.get "name" .text, ← fields.get "ty" TypeExpr.decoder⟩

def StructDecl.toJson (decl : StructDecl) : Json :=
  .record [("name", .text decl.name),
    ("type_params", .array (decl.typeParams.map TypeParam.toJson)),
    ("abilities", decl.abilities.toJson), ("fields", .array (decl.fields.map TypedName.toJson))]

def StructDecl.decoder : Decoder StructDecl :=
  .record ["name", "type_params", "abilities", "fields"] fun fields => do
    return {
      name := ← fields.get "name" .text
      typeParams := ← fields.getD "type_params" (.listOf TypeParam.decoder) []
      abilities := ← fields.getD "abilities" AbilitySet.decoder .none
      fields := ← fields.getD "fields" (.listOf TypedName.decoder) [] }

def FunctionDecl.toJson (decl : FunctionDecl) : Json :=
  .record [("name", .text decl.name),
    ("type_params", .array (decl.typeParams.map TypeParam.toJson)),
    ("params", .array (decl.params.map TypedName.toJson)),
    ("ret", .optional decl.ret TypeExpr.toJson),
    ("acquires", .array (decl.acquires.map .text)),
    ("attributes", .array (decl.attributes.map .text)),
    ("body", blockRecord (Stmt.allToJson decl.body))]

def FunctionDecl.decoder : Decoder FunctionDecl :=
  .record ["name", "type_params", "params", "ret", "acquires", "attributes", "body"]
    fun fields => do
    return {
      name := ← fields.get "name" .text
      typeParams := ← fields.getD "type_params" (.listOf TypeParam.decoder) []
      params := ← fields.getD "params" (.listOf TypedName.decoder) []
      ret := ← fields.get? "ret" TypeExpr.decoder
      acquires := ← fields.getD "acquires" (.listOf .text) []
      attributes := ← fields.getD "attributes" (.listOf .text) []
      body := ← fields.getD "body" (blockDecoder Stmt.decoder) [] }

namespace Module

def toJson (module : Module) : Json :=
  .record (optionalField "address" module.address Address.toJson ++
    [("name", .text module.name), ("structs", .array (module.structs.map StructDecl.toJson)),
      ("functions", .array (module.functions.map FunctionDecl.toJson))])

def decoder : Decoder Module :=
  .record ["address", "name", "structs", "functions"] fun fields => do
    return {
      address := ← fields.get? "address" Address.decoder
      name := ← fields.get "name" .text
      structs := ← fields.getD "structs" (.listOf StructDecl.decoder) []
      functions := ← fields.getD "functions" (.listOf FunctionDecl.decoder) [] }

/-- The document of a module, one element per line. -/
def write (module : Module) : String := module.toJson.pretty

/-- Read the document of a module. -/
def read? (source : String) : Option Module := decoder.readText source

/-- The document of a module is read back as a module with the same document. -/
def readsBack (module : Module) : Bool :=
  match read? module.write with
  | some again => again.write = module.write
  | none => false

end Module

end Custody
