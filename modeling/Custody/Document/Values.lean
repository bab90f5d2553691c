import Custody.Document.Types
import Custody.Store
/-!
# Documents of values

A reference has no document: it means nothing outside the execution that made it.
-/

namespace Custody

mutual

/-- The document of a value, absent if a reference is in it. -/
def Value.toJson? : Value → Option Json
  | .unit => some (.text "unit")
  | .bool value => some (.tagged "bool" (.bool value))
  | .u8 value => some (.tagged "u8" (.nat value.toNat))
  | .u64 value => some (.tagged "u64" (.nat value.toNat))
  | .u128 value => some (.tagged "u128" (.nat value.toNat))
  | .address value => some (.tagged "address" value.toJson)
  | .signer value => some (.tagged "signer" value.toJson)
  | .vector items => do return .tagged "vector" (.array (← allToJson? items))
  | .struct tag fields => do
    return .tagged "struct"
      (.record [("tag", tag.toJson), ("fields", .array (← allToJson? fields))])
  | .ref _ => none

def Value.allToJson? : List Value → Option (List Json)
  | [] => some []
  | value :: values => do return (← value.toJson?) :: (← allToJson? values)

end

/-- Values nested less than `height` deep. -/
def Value.decoderBelow : (height : Nat) → Decoder Value
  | 0 => .refuse
  | height + 1 =>
    .choice [("unit", .unit)] fun name =>
      match name with
      | "bool" => Decoder.flag.map .bool
      | "u8" => (Decoder.word 8).map .u8
      | "u64" => (Decoder.word 64).map .u64
      | "u128" => (Decoder.word 128).map .u128
      | "address" => Address.decoder.map .address
      | "signer" => Address.decoder.map .signer
      | "vector" => (Decoder.listOf (decoderBelow height)).map .vector
      | "struct" =>
        .record ["tag", "fields"] fun fields => do
          return .struct (← fields.get "tag" StructTag.decoder)
            (← fields.get "fields" (.listOf (decoderBelow height)))
      | _ => .refuse

/-- Every level of a value opens a bracket, so a document holds no deeper values than these. -/
def Value.decoder : Decoder Value := decoderBelow (nestingLimit + 1)

/-- The document of a value that holds no reference. -/
def Value.toJson (value : Value) : Json := value.toJson?.getD .null

def Resource.toJson (resource : Resource) : Json :=
  .record [("address", resource.address.toJson), ("value", resource.value.toJson)]

def Resource.decoder : Decoder Resource :=
  .record ["address", "value"] fun fields => do
    return ⟨← fields.get "address" Address.decoder, ← fields.get "value" Value.decoder⟩

def SlotKey.decoder : Decoder SlotKey :=
  .record ["address", "tag"] fun fields => do
    return ⟨← fields.get "address" Address.decoder, ← fields.get "tag" StructTag.decoder⟩

namespace Store

/-- The resources of a store as a list of documents. -/
def toJson (store : Store) : Json := .array (store.snapshot.map Resource.toJson)

/-- Read a list of resources. -/
def readSnapshot? (source : String) : Option (List Resource) :=
  (Decoder.listOf Resource.decoder).readText source

end Store

end Custody
