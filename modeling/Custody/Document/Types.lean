import Custody.Declaration.Module
import Custody.Document.Decoder
import Custody.Ty
/-!
# Documents of types

Addresses, abilities, and types, both as written and resolved.
-/

namespace Custody

/-! ## Addresses and abilities -/

def Address.toJson (address : Address) : Json := .text address.render

def Address.decoder : Decoder Address := Decoder.text.convert Address.parse?

def Ability.toJson (ability : Ability) : Json := .text ability.name

def Ability.decoder : Decoder Ability :=
  .oneOf (Ability.all.map fun ability => (ability.name, ability))

def AbilitySet.toJson (abilities : AbilitySet) : Json :=
  .array (abilities.toList.map Ability.toJson)

/-- A list of abilities, in any order and with repetitions. -/
def AbilitySet.decoder : Decoder AbilitySet := (Decoder.listOf Ability.decoder).map
    AbilitySet.ofList

/-! ## Names -/

def QualifiedName.toJson (id : QualifiedName) : Json :=
  .record [("module", .text id.module), ("name", .text id.name)]

def QualifiedName.decoder : Decoder QualifiedName :=
  .record ["module", "name"] fun fields => do
    return ⟨← fields.get "module" .text, ← fields.get "name" .text⟩

/-! ## Types as written -/

/-- The fields of a struct as written; what is absent or empty is left out. -/
def structFields (module : Option String) (name : String)
    (args : List Json) : List (String × Json) :=
  (match module with
    | some module => [("module", Json.text module)]
    | none => []) ++
    ("name", .text name) :: if args.isEmpty then [] else [("args", .array args)]

mutual

def TypeExpr.toJson : TypeExpr → Json
  | .bool => .text "bool"
  | .u8 => .text "u8"
  | .u64 => .text "u64"
  | .u128 => .text "u128"
  | .address => .text "address"
  | .signer => .text "signer"
  | .vector elem => .tagged "vector" elem.toJson
  | .struct module name args =>
      .tagged "struct" (.record (structFields module name (allToJson args)))
  | .param name => .tagged "param" (.text name)
  | .ref mutable inner =>
    .tagged "ref" (.record [("mutable", .bool mutable), ("inner", inner.toJson)])

def TypeExpr.allToJson : List TypeExpr → List Json
  | [] => []
  | type :: types => type.toJson :: allToJson types

end

def StructExpr.toJson (struct : StructExpr) : Json :=
  .record (structFields struct.module struct.name (TypeExpr.allToJson struct.args))

/-- A struct as written, given how its arguments are read. -/
def StructExpr.decoderWith (type : Decoder TypeExpr) : Decoder StructExpr :=
  .record ["module", "name", "args"] fun fields => do
    return {
      module := ← fields.get? "module" .text
      name := ← fields.get "name" .text
      args := ← fields.getD "args" (.listOf type) [] }

/-- Types nested less than `height` deep. -/
def TypeExpr.decoderBelow : (height : Nat) → Decoder TypeExpr
  | 0 => .refuse
  | height + 1 =>
    .choice
      [("bool", .bool), ("u8", .u8), ("u64", .u64), ("u128", .u128), ("address", .address),
        ("signer", .signer)]
      fun name =>
        match name with
        | "vector" => (decoderBelow height).map .vector
        | "struct" => (StructExpr.decoderWith (decoderBelow height)).map StructExpr.type
        | "param" => Decoder.text.map .param
        | "ref" =>
          .record ["mutable", "inner"] fun fields => do
            return .ref (← fields.get "mutable" .flag) (← fields.get "inner" (decoderBelow height))
        | _ => .refuse

/-- Every level of a type opens a bracket, so a document holds no deeper types than these. -/
def TypeExpr.decoder : Decoder TypeExpr := decoderBelow (nestingLimit + 1)

def StructExpr.decoder : Decoder StructExpr := decoderWith TypeExpr.decoder

/-! ## Resolved types -/

/-- The fields of an instantiation; no arguments are left out. -/
def tagFields (id : StructId) (args : List Json) : List (String × Json) :=
  ("id", id.toJson) :: if args.isEmpty then [] else [("args", .array args)]

mutual

def Ty.toJson : Ty → Json
  | .unit => .text "unit"
  | .bool => .text "bool"
  | .u8 => .text "u8"
  | .u64 => .text "u64"
  | .u128 => .text "u128"
  | .address => .text "address"
  | .signer => .text "signer"
  | .vector elem => .tagged "vector" elem.toJson
  | .struct id args => .tagged "struct" (.record (tagFields id (allToJson args)))
  | .param index name => .tagged "param" (.record [("index", .nat index), ("name", .text name)])
  | .ref mutable inner =>
    .tagged "ref" (.record [("mutable", .bool mutable), ("inner", inner.toJson)])

def Ty.allToJson : List Ty → List Json
  | [] => []
  | ty :: types => ty.toJson :: allToJson types

end

def StructTag.toJson (tag : StructTag) : Json :=
  .record (tagFields tag.id (Ty.allToJson tag.args))

/-- An instantiation, given how its arguments are read. -/
def StructTag.decoderWith (ty : Decoder Ty) : Decoder StructTag :=
  .record ["id", "args"] fun fields => do
    return ⟨← fields.get "id" QualifiedName.decoder, ← fields.getD "args" (.listOf ty) []⟩

/-- Types nested less than `height` deep. -/
def Ty.decoderBelow : (height : Nat) → Decoder Ty
  | 0 => .refuse
  | height + 1 =>
    .choice
      [("unit", .unit), ("bool", .bool), ("u8", .u8), ("u64", .u64), ("u128", .u128),
        ("address", .address), ("signer", .signer)]
      fun name =>
        match name with
        | "vector" => (decoderBelow height).map .vector
        | "struct" => (StructTag.decoderWith (decoderBelow height)).map StructTag.ty
        | "param" =>
          .record ["index", "name"] fun fields => do
            return .param (← fields.get "index" (.natBelow (Nat.pow 2 64)))
              (← fields.get "name" .text)
        | "ref" =>
          .record ["mutable", "inner"] fun fields => do
            return .ref (← fields.get "mutable" .flag) (← fields.get "inner" (decoderBelow height))
        | _ => .refuse

def Ty.decoder : Decoder Ty := decoderBelow (nestingLimit + 1)

def StructTag.decoder : Decoder StructTag := decoderWith Ty.decoder

end Custody
