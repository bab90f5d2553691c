import Custody.Document.Types
/-!
# Documents of bodies

Expressions and statements. A block is a record with the one field `stmts`.
-/

namespace Custody

/-! ## Operators -/

def BinOp.name : BinOp → String
  | .add => "add"
  | .sub => "sub"
  | .mul => "mul"
  | .div => "div"
  | .mod => "mod"
  | .eq => "eq"
  | .neq => "neq"
  | .lt => "lt"
  | .le => "le"
  | .gt => "gt"
  | .ge => "ge"
  | .and => "and"
  | .or => "or"

def BinOp.all : List BinOp :=
  [.add, .sub, .mul, .div, .mod, .eq, .neq, .lt, .le, .gt, .ge, .and, .or]

def BinOp.toJson (op : BinOp) : Json := .text op.name

def BinOp.decoder : Decoder BinOp := .oneOf (BinOp.all.map fun op => (op.name, op))

/-! ## Expressions -/

/-- A field that is left out when its value is absent. -/
def optionalField {α : Type} (name : String) (value : Option α) (encode : α → Json) :
    List (String × Json) :=
  match value with
  | some value => [(name, encode value)]
  | none => []

mutual

def Expr.toJson : Expr → Json
  | .unit => .text "unit"
  | .bool value => .tagged "bool" (.bool value)
  | .u8 value => .tagged "u8" (.nat value.toNat)
  | .u64 value => .tagged "u64" (.nat value.toNat)
  | .u128 value => .tagged "u128" (.nat value.toNat)
  | .address value => .tagged "address" value.toJson
  | .var name => .tagged "var" (.text name)
  | .move name => .tagged "move" (.text name)
  | .copy name => .tagged "copy" (.text name)
  | .borrow mutable name =>
    .tagged "borrow" (.record [("mutable", .bool mutable), ("name", .text name)])
  | .borrowField mutable base field =>
    .tagged "borrow_field"
      (.record [("mutable", .bool mutable), ("base", base.toJson), ("field", .text field)])
  | .freeze inner => .tagged "freeze" inner.toJson
  | .deref inner => .tagged "deref" inner.toJson
  | .pack struct fields =>
    .tagged "pack" (.record [("ty", struct.toJson), ("fields", .array (fieldsToJson fields))])
  | .call module function typeArgs args =>
    .tagged "call" (.record (optionalField "module" module .text ++
      ("function", .text function) ::
      (if typeArgs.isEmpty then [] else [("type_args", .array (TypeExpr.allToJson typeArgs))]) ++
      [("args", .array (allToJson args))]))
  | .binary op left right =>
    .tagged "binary"
      (.record [("op", op.toJson), ("lhs", left.toJson), ("rhs", right.toJson)])
  | .not inner => .tagged "not" inner.toJson
  | .vector elem items =>
    .tagged "vector" (.record [("elem", elem.toJson), ("items", .array (allToJson items))])
  | .signerAddress inner => .tagged "signer_address" inner.toJson
  | .moveTo struct signer value =>
    .tagged "move_to"
      (.record [("ty", struct.toJson), ("signer", signer.toJson), ("value", value.toJson)])
  | .moveFrom struct addr =>
    .tagged "move_from" (.record [("ty", struct.toJson), ("addr", addr.toJson)])
  | .borrowGlobal struct mutable addr =>
    .tagged "borrow_global"
      (.record [("ty", struct.toJson), ("mutable", .bool mutable), ("addr", addr.toJson)])
  | .existsAt struct addr =>
    .tagged "exists" (.record [("ty", struct.toJson), ("addr", addr.toJson)])

def Expr.allToJson : List Expr → List Json
  | [] => []
  | expr :: exprs => expr.toJson :: allToJson exprs

def Expr.fieldsToJson : List (String × Expr) → List Json
  | [] => []
  | (field, value) :: rest =>
    .record [("field", .text field), ("value", value.toJson)] :: fieldsToJson rest

end

/-- Expressions nested less than `height` deep. -/
def Expr.decoderBelow : (height : Nat) → Decoder Expr
  | 0 => .refuse
  | height + 1 =>
    let struct := StructExpr.decoder
    let expr := decoderBelow height
    .choice [("unit", .unit)] fun name =>
      match name with
      | "bool" => Decoder.flag.map .bool
      | "u8" => (Decoder.word 8).map .u8
      | "u64" => (Decoder.word 64).map .u64
      | "u128" => (Decoder.word 128).map .u128
      | "address" => Address.decoder.map .address
      | "var" => Decoder.text.map .var
      | "move" => Decoder.text.map .move
      | "copy" => Decoder.text.map .copy
      | "borrow" =>
        .record ["mutable", "name"] fun fields => do
          return .borrow (← fields.get "mutable" .flag) (← fields.get "name" .text)
      | "borrow_field" =>
        .record ["mutable", "base", "field"] fun fields => do
          return .borrowField (← fields.get "mutable" .flag) (← fields.get "base" expr)
            (← fields.get "field" .text)
      | "freeze" => expr.map .freeze
      | "deref" => expr.map .deref
      | "pack" =>
        let init : Decoder (String × Expr) :=
          .record ["field", "value"] fun fields => do
            return (← fields.get "field" .text, ← fields.get "value" expr)
        .record ["ty", "fields"] fun fields => do
          return .pack (← fields.get "ty" struct) (← fields.get "fields" (.listOf init))
      | "call" =>
        .record ["module", "function", "type_args", "args"] fun fields => do
          return .call (← fields.get? "module" .text) (← fields.get "function" .text)
            (← fields.getD "type_args" (.listOf TypeExpr.decoder) [])
            (← fields.getD "args" (.listOf expr) [])
      | "binary" =>
        .record ["op", "lhs", "rhs"] fun fields => do
          return .binary (← fields.get "op" BinOp.decoder) (← fields.get "lhs" expr)
            (← fields.get "rhs" expr)
      | "not" => expr.map .not
      | "vector" =>
        .record ["elem", "items"] fun fields => do
          return .vector (← fields.get "elem" TypeExpr.decoder)
            (← fields.getD "items" (.listOf expr) [])
      | "signer_address" => expr.map .signerAddress
      | "move_to" =>
        .record ["ty", "signer", "value"] fun fields => do
          return .moveTo (← fields.get "ty" struct) (← fields.get "signer" expr)
            (← fields.get "value" expr)
      | "move_from" =>
        .record ["ty", "addr"] fun fields => do
          return .moveFrom (← fields.get "ty" struct) (← fields.get "addr" expr)
      | "borrow_global" =>
        .record ["ty", "mutable", "addr"] fun fields => do
          return .borrowGlobal (← fields.get "ty" struct) (← fields.get "mutable" .flag)
            (← fields.get "addr" expr)
      | "exists" =>
        .record ["ty", "addr"] fun fields => do
          return .existsAt (← fields.get "ty" struct) (← fields.get "addr" expr)
      | _ => .refuse

/-- Every level of an expression opens a bracket, so a document holds no deeper ones than these. -/
def Expr.decoder : Decoder Expr := decoderBelow (nestingLimit + 1)

/-! ## Statements -/

def Binder.toJson : Binder → Json
  | .bind name => .tagged "bind" (.text name)
  | .ignore => .text "ignore"

def Binder.decoder : Decoder Binder :=
  .choice [("ignore", .ignore)] fun name =>
    match name with
    | "bind" => Decoder.text.map .bind
    | _ => .refuse

def unpackedToJson (field : String × Binder) : Json :=
  .record [("field", .text field.1), ("binder", field.2.toJson)]

def unpackedDecoder : Decoder (String × Binder) :=
  .record ["field", "binder"] fun fields => do
    return (← fields.get "field" .text, ← fields.get "binder" Binder.decoder)

/-- A block with the given statements. -/
def blockRecord (stmts : List Json) : Json := .record [("stmts", .array stmts)]

mutual

def Stmt.toJson : Stmt → Json
  | .bind name type value =>
    .tagged "let" (.record (("name", .text name) :: optionalField "ty" type TypeExpr.toJson ++
      [("value", value.toJson)]))
  | .unpack struct fields value =>
    .tagged "unpack" (.record [("ty", struct.toJson),
      ("fields", .array (fields.map unpackedToJson)), ("value", value.toJson)])
  | .assign name value =>
    .tagged "assign" (.record [("name", .text name), ("value", value.toJson)])
  | .write target value =>
    .tagged "write" (.record [("target", target.toJson), ("value", value.toJson)])
  | .branch cond onTrue onFalse =>
    .tagged "if" (.record (("cond", cond.toJson) :: ("then", blockRecord (allToJson onTrue)) ::
      otherwiseToJson onFalse))
  | .loop cond body =>
    .tagged "while" (.record [("cond", cond.toJson), ("body", blockRecord (allToJson body))])
  | .ret value => .tagged "return" (.optional value Expr.toJson)
  | .abort code => .tagged "abort" code.toJson
  | .assert cond code =>
    .tagged "assert" (.record [("cond", cond.toJson), ("code", .nat code.toNat)])
  | .eval value => .tagged "expr" value.toJson

def Stmt.allToJson : List Stmt → List Json
  | [] => []
  | stmt :: stmts => stmt.toJson :: allToJson stmts

def Stmt.otherwiseToJson : Option (List Stmt) → List (String × Json)
  | none => []
  | some block => [("otherwise", blockRecord (allToJson block))]

end

/-- A block, given how its statements are read. -/
def blockDecoder (stmt : Decoder Stmt) : Decoder (List Stmt) :=
  .record ["stmts"] fun fields => fields.getD "stmts" (.listOf stmt) []

/-- Statements nested less than `height` deep. -/
def Stmt.decoderBelow : (height : Nat) → Decoder Stmt
  | 0 => .refuse
  | height + 1 =>
    let expr := Expr.decoder
    let block := blockDecoder (decoderBelow height)
    .choice [] fun name =>
      match name with
      | "let" =>
        .record ["name", "ty", "value"] fun fields => do
          return .bind (← fields.get "name" .text) (← fields.get? "ty" TypeExpr.decoder)
            (← fields.get "value" expr)
      | "unpack" =>
        .record ["ty", "fields", "value"] fun fields => do
          return .unpack (← fields.get "ty" StructExpr.decoder)
            (← fields.get "fields" (.listOf unpackedDecoder)) (← fields.get "value" expr)
      | "assign" =>
        .record ["name", "value"] fun fields => do
          return .assign (← fields.get "name" .text) (← fields.get "value" expr)
      | "write" =>
        .record ["target", "value"] fun fields => do
          return .write (← fields.get "target" expr) (← fields.get "value" expr)
      | "if" =>
        .record ["cond", "then", "otherwise"] fun fields => do
          return .branch (← fields.get "cond" expr) (← fields.get "then" block)
            (← fields.get? "otherwise" block)
      | "while" =>
        .record ["cond", "body"] fun fields => do
          return .loop (← fields.get "cond" expr) (← fields.get "body" block)
      | "return" => (Decoder.optional expr).map .ret
      | "abort" => expr.map .abort
      | "assert" =>
        .record ["cond", "code"] fun fields => do
          return .assert (← fields.get "cond" expr) (← fields.get "code" (.word 64))
      | "expr" => expr.map .eval
      | _ => .refuse

def Stmt.decoder : Decoder Stmt := decoderBelow (nestingLimit + 1)

end Custody
