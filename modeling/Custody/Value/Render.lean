import Custody.Value
/-!
# Values as text

The short text of a value, for results and messages. A reference shows its root in full, with every
part of it labelled.
-/

namespace Custody

/-- A qualified name with its parts labelled. -/
def QualifiedName.labelledAs (id : QualifiedName) (label : String) : String :=
  label ++ " \x7b module: " ++ Text.quotedText id.module ++ ", name: " ++ Text.quotedText id.name ++
    " \x7d"

mutual

/-- A type with its parts labelled. -/
def Ty.labelled : Ty → String
  | .unit => "Unit"
  | .bool => "Bool"
  | .u8 => "U8"
  | .u64 => "U64"
  | .u128 => "U128"
  | .address => "Address"
  | .signer => "Signer"
  | .vector elem => "Vector(" ++ elem.labelled ++ ")"
  | .struct id args =>
    "Struct(StructTag \x7b id: " ++ id.labelledAs "StructId" ++ ", args: [" ++ labelledArgs args ++
      "] \x7d)"
  | .param index name =>
    "Param \x7b index: " ++ toString index ++ ", name: " ++ Text.quotedText name ++ " \x7d"
  | .ref mutable inner =>
    "Ref \x7b mutable: " ++ toString mutable ++ ", inner: " ++ inner.labelled ++ " \x7d"

def Ty.labelledArgs : List Ty → String
  | [] => ""
  | [ty] => ty.labelled
  | ty :: types => ty.labelled ++ ", " ++ labelledArgs types

end

def StructTag.labelled (tag : StructTag) : String :=
  "StructTag \x7b id: " ++ tag.id.labelledAs "StructId" ++ ", args: [" ++
    Ty.labelledArgs tag.args ++ "] \x7d"

def SlotKey.labelled (key : SlotKey) : String :=
  "SlotKey \x7b address: AccountAddress(" ++ key.address.render ++ "), tag: " ++ key.tag.labelled ++
    " \x7d"

def RefRoot.labelled : RefRoot → String
  | .local frame index =>
    "Local \x7b frame: " ++ toString frame ++ ", index: " ++ toString index ++ " \x7d"
  | .global key => "Global(" ++ key.labelled ++ ")"
  | .host index => "Host(" ++ toString index ++ ")"

def Reference.render (reference : Reference) : String :=
  (if reference.mutable then "&mut " else "&") ++ reference.root.labelled

namespace Value

mutual

/-- The short text of a value. -/
def render : Value → String
  | .unit => "()"
  | .bool value => toString value
  | .u8 value => toString value.toNat ++ "u8"
  | .u64 value => toString value.toNat
  | .u128 value => toString value.toNat ++ "u128"
  | .address value => "@" ++ value.render
  | .signer value => "signer(" ++ value.render ++ ")"
  | .vector items => "[" ++ renderItems items ++ "]"
  | .struct tag fields => tag.render ++ " \x7b" ++ renderFields fields ++ " \x7d"
  | .ref reference => reference.render

def renderItems : List Value → String
  | [] => ""
  | [value] => render value
  | value :: values => render value ++ ", " ++ renderItems values

def renderFields : List Value → String
  | [] => ""
  | [value] => " " ++ render value
  | value :: values => " " ++ render value ++ "," ++ renderFields values

end

end Value

end Custody
