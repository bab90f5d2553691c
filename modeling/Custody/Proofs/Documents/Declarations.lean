import Custody.Document.Modules
import Custody.Proofs.Documents.Decoders
import Custody.Proofs.Spellings.Addresses
/-!
# Written modules are read back

The document of every part of a module is read back as that part, if it finds room. Types,
expressions and statements nest, and each level opens a bracket: the decoders stop at a height that
no document within the limit reaches, so the statements are about rooms below the height.

The document of a module is therefore read back as the module exactly when it nests no deeper than
the limit.
-/

namespace Custody

open Decoder TypeExpr

/-! ## Addresses and abilities -/

variable (room : Nat)

namespace Address

theorem parse?_render (address : Address) : parse? address.render = some address := by
  rw [parse?, parse_render]
  rfl

theorem decoder_reads (address : Address) : Reads Address.decoder room address.toJson address :=
  convert_reads (text_reads room address.render) (parse?_render address)

end Address

theorem Ability.decoder_reads (ability : Ability) :
    Reads Ability.decoder room ability.toJson ability := by
  cases ability <;> exact choice_plain rfl room

theorem AbilitySet.ofList_toList (abilities : AbilitySet) :
    ofList abilities.toList = abilities := by
  rcases abilities with ⟨copy, drop, store, key⟩
  revert copy drop store key
  decide

theorem AbilitySet.decoder_reads (room : Nat) (abilities : AbilitySet) :
    Reads AbilitySet.decoder room abilities.toJson abilities := by
  have reads : Reads AbilitySet.decoder room abilities.toJson (ofList abilities.toList) :=
    map_reads ofList (listOf_reads fun inner _ => readsAll_map (Ability.decoder_reads inner) _)
  rwa [ofList_toList] at reads

theorem AbilitySet.plain_toJson (abilities : AbilitySet) : abilities.toJson.Plain := by
  simp [toJson, Ability.toJson]

/-! ## Types -/

theorem optionalText_reads (value : String) :
    Reads (optional text) room (.text value) (some value) :=
  optional_reads (by simp [Json.text]) (text_reads room value)

theorem StructExpr.decoderWith_reads {type : Decoder TypeExpr} {room : Nat} (struct : StructExpr)
    (reads : ∀ inner < room, ReadsAll type inner (allToJson struct.args) struct.args) :
    Reads (decoderWith type) room struct.toJson struct := by
  obtain ⟨module, name, args⟩ := struct
  have argsRead : ∀ inner < room,
      Reads (listOf type) inner (.array (allToJson args)) args :=
    fun inner below => listOf_reads fun inside less => reads inside (Nat.lt_trans less below)
  unfold StructExpr.decoderWith StructExpr.toJson structFields
  cases module <;> cases args <;>
    (refine record_reads rfl fun inner below => ?_
     first | refine bind_getD_absent rfl ?_ | refine bind_getD rfl (optionalText_reads inner _) ?_
     refine bind_get rfl (text_reads inner name) ?_
     first | exact bind_getD_absent rfl rfl | exact bind_getD rfl (argsRead inner below) rfl)

mutual

theorem TypeExpr.decoderBelow_reads {height room : Nat} (below : room < height) (type : TypeExpr) :
    Reads (decoderBelow height) room type.toJson type := by
  cases height with
  | zero => omega
  | succ height =>
    cases type with
    | bool | u8 | u64 | u128 | address | signer => exact choice_plain rfl room
    | vector elem =>
      refine choice_tagged rfl fun inner less => ?_
      exact map_reads _ (decoderBelow_reads (by omega) elem)
    | struct module name args =>
      refine choice_tagged rfl fun inner less => ?_
      refine map_reads StructExpr.type (StructExpr.decoderWith_reads ⟨module, name, args⟩ ?_)
      exact fun inside lesser => decoderBelow_readsAll (by omega) args
    | param name =>
      refine choice_tagged rfl fun inner less => ?_
      exact map_reads _ (text_reads inner name)
    | ref mutable inner =>
      refine choice_tagged rfl fun outer less => ?_
      refine record_reads rfl fun inside lesser => ?_
      refine bind_get rfl (flag_reads inside mutable) ?_
      exact bind_get rfl (decoderBelow_reads (by omega) inner) rfl

theorem TypeExpr.decoderBelow_readsAll {height room : Nat} (below : room < height)
    (types : List TypeExpr) : ReadsAll (decoderBelow height) room (allToJson types) types := by
  cases types with
  | nil => exact readsAll_nil _ _
  | cons type types =>
    exact readsAll_cons (decoderBelow_reads below type) (decoderBelow_readsAll below types)

end

mutual

theorem TypeExpr.plain_toJson (type : TypeExpr) : type.toJson.Plain := by
  cases type with
  | bool | u8 | u64 | u128 | address | signer => exact Json.plain_text _
  | vector elem => simp [toJson, plain_toJson elem]
  | struct module name args =>
    have argsPlain := plain_allToJson args
    cases module <;> by_cases empty : (allToJson args).isEmpty = true <;>
      simp_all [toJson, structFields]
  | param name => simp [toJson]
  | ref mutable inner => simp [toJson, Json.Plain, plain_toJson inner]

theorem TypeExpr.plain_allToJson (types : List TypeExpr) :
    ∀ json ∈ allToJson types, json.Plain := by
  cases types with
  | nil => simp [allToJson]
  | cons type types => simpa [allToJson, plain_toJson type] using plain_allToJson types

end

theorem StructExpr.plain_toJson (struct : StructExpr) : struct.toJson.Plain :=
  Json.plain_tagged.mp (TypeExpr.plain_toJson struct.type)

section WithinLimit

variable {room : Nat} (within : room ≤ nestingLimit)

include within

theorem TypeExpr.decoder_reads (type : TypeExpr) : Reads decoder room type.toJson type :=
  decoderBelow_reads (Nat.lt_succ_of_le within) type

theorem TypeExpr.decoder_readsAll (types : List TypeExpr) :
    ReadsAll decoder room (allToJson types) types :=
  decoderBelow_readsAll (Nat.lt_succ_of_le within) types

theorem StructExpr.decoder_reads (struct : StructExpr) : Reads decoder room struct.toJson struct :=
  decoderWith_reads struct fun _ less => decoder_readsAll (by omega) struct.args

end WithinLimit

/-! ## Expressions -/

theorem BinOp.decoder_reads (op : BinOp) : Reads BinOp.decoder room op.toJson op := by
  cases op <;> exact choice_plain rfl room

/-- A call is read from its fields, where the module and the type arguments may be left out. -/
theorem Expr.call_reads {expr : Decoder Expr} {room : Nat} (within : room ≤ nestingLimit)
    (module : Option String) (function : String) (typeArgs : List TypeExpr) {args : List Expr}
    (reads : ∀ inner < room, ReadsAll expr inner (allToJson args) args) :
    Reads
      (.record ["module", "function", "type_args", "args"] fun fields => do
        return Expr.call (← fields.get? "module" .text) (← fields.get "function" .text)
          (← fields.getD "type_args" (.listOf TypeExpr.decoder) [])
          (← fields.getD "args" (.listOf expr) []))
      room
      (.record (optionalField "module" module .text ++
        ("function", .text function) ::
        (if typeArgs.isEmpty then [] else [("type_args", .array (TypeExpr.allToJson typeArgs))]) ++
        [("args", .array (allToJson args))]))
      (Expr.call module function typeArgs args) := by
  have argsRead : ∀ inner < room, Reads (listOf expr) inner (.array (allToJson args)) args :=
    fun inner below => listOf_reads fun inside less => reads inside (Nat.lt_trans less below)
  have typesRead : ∀ inner < room,
      Reads (listOf TypeExpr.decoder) inner (.array (TypeExpr.allToJson typeArgs)) typeArgs :=
    fun inner below => listOf_reads fun inside less => decoder_readsAll (by omega) typeArgs
  cases module <;> cases typeArgs <;>
    (refine record_reads rfl fun inner below => ?_
     first | refine bind_getD_absent rfl ?_ | refine bind_getD rfl (optionalText_reads inner _) ?_
     refine bind_get rfl (text_reads inner function) ?_
     first | refine bind_getD_absent rfl ?_ | refine bind_getD rfl (typesRead inner below) ?_
     exact bind_getD rfl (argsRead inner below) rfl)

mutual

theorem Expr.decoderBelow_reads {height room : Nat} (below : room < height)
    (within : room ≤ nestingLimit) (expr : Expr) :
    Reads (decoderBelow height) room expr.toJson expr := by
  cases height with
  | zero => omega
  | succ height =>
    cases expr with
    | unit => exact choice_plain rfl room
    | bool value => exact choice_tagged rfl fun inner _ => map_reads _ (flag_reads inner value)
    | u8 value | u64 value | u128 value =>
      exact choice_tagged rfl fun inner _ => map_reads _ (word_reads inner value)
    | address value =>
      exact choice_tagged rfl fun inner _ => map_reads _ (Address.decoder_reads inner value)
    | var name | move name | copy name =>
      exact choice_tagged rfl fun inner _ => map_reads _ (text_reads inner name)
    | borrow mutable name =>
      refine choice_tagged rfl fun _ less => record_reads rfl fun inside lesser => ?_
      refine bind_get rfl (flag_reads inside mutable) ?_
      exact bind_get rfl (text_reads inside name) rfl
    | borrowField mutable base field =>
      refine choice_tagged rfl fun _ less => record_reads rfl fun inside lesser => ?_
      refine bind_get rfl (flag_reads inside mutable) ?_
      refine bind_get rfl (decoderBelow_reads (by omega) (by omega) base) ?_
      exact bind_get rfl (text_reads inside field) rfl
    | freeze inner | deref inner | not inner | signerAddress inner =>
      refine choice_tagged rfl fun _ less => ?_
      exact map_reads _ (decoderBelow_reads (by omega) (by omega) inner)
    | pack struct fields =>
      refine choice_tagged rfl fun _ less => record_reads rfl fun inside lesser => ?_
      refine bind_get rfl (StructExpr.decoder_reads (by omega) struct) ?_
      refine bind_get rfl (listOf_reads fun innermost least => ?_) rfl
      exact decoderBelow_readsFields (by omega) (by omega) fields
    | call module function typeArgs args =>
      refine choice_tagged rfl fun _ less => call_reads (by omega) module function typeArgs ?_
      exact fun inside lesser => decoderBelow_readsAll (by omega) (by omega) args
    | binary op left right =>
      refine choice_tagged rfl fun _ less => record_reads rfl fun inside lesser => ?_
      refine bind_get rfl (BinOp.decoder_reads inside op) ?_
      refine bind_get rfl (decoderBelow_reads (by omega) (by omega) left) ?_
      exact bind_get rfl (decoderBelow_reads (by omega) (by omega) right) rfl
    | vector elem items =>
      refine choice_tagged rfl fun _ less => record_reads rfl fun inside lesser => ?_
      refine bind_get rfl (TypeExpr.decoder_reads (by omega) elem) ?_
      refine bind_getD rfl (listOf_reads fun innermost least => ?_) rfl
      exact decoderBelow_readsAll (by omega) (by omega) items
    | moveTo struct signer value =>
      refine choice_tagged rfl fun _ less => record_reads rfl fun inside lesser => ?_
      refine bind_get rfl (StructExpr.decoder_reads (by omega) struct) ?_
      refine bind_get rfl (decoderBelow_reads (by omega) (by omega) signer) ?_
      exact bind_get rfl (decoderBelow_reads (by omega) (by omega) value) rfl
    | moveFrom struct addr | existsAt struct addr =>
      refine choice_tagged rfl fun _ less => record_reads rfl fun inside lesser => ?_
      refine bind_get rfl (StructExpr.decoder_reads (by omega) struct) ?_
      exact bind_get rfl (decoderBelow_reads (by omega) (by omega) addr) rfl
    | borrowGlobal struct mutable addr =>
      refine choice_tagged rfl fun _ less => record_reads rfl fun inside lesser => ?_
      refine bind_get rfl (StructExpr.decoder_reads (by omega) struct) ?_
      refine bind_get rfl (flag_reads inside mutable) ?_
      exact bind_get rfl (decoderBelow_reads (by omega) (by omega) addr) rfl

theorem Expr.decoderBelow_readsAll {height room : Nat} (below : room < height)
    (within : room ≤ nestingLimit) (exprs : List Expr) :
    ReadsAll (decoderBelow height) room (allToJson exprs) exprs := by
  cases exprs with
  | nil => exact readsAll_nil _ _
  | cons expr exprs =>
    exact readsAll_cons (decoderBelow_reads below within expr)
      (decoderBelow_readsAll below within exprs)

theorem Expr.decoderBelow_readsFields {height room : Nat} (below : room < height)
    (within : room ≤ nestingLimit) (fields : List (String × Expr)) :
    ReadsAll
      (.record ["field", "value"] fun fields => do
        return (← fields.get "field" .text, ← fields.get "value" (decoderBelow height)))
      room (fieldsToJson fields) fields := by
  cases fields with
  | nil => exact readsAll_nil _ _
  | cons field fields =>
    obtain ⟨name, value⟩ := field
    refine readsAll_cons (record_reads rfl fun inside less => ?_)
      (decoderBelow_readsFields below within fields)
    refine bind_get rfl (text_reads inside name) ?_
    exact bind_get rfl (decoderBelow_reads (by omega) (by omega) value) rfl

end

mutual

theorem Expr.plain_toJson (expr : Expr) : expr.toJson.Plain := by
  cases expr with
  | unit => exact Json.plain_text _
  | bool | u8 | u64 | u128 | address | var | move | copy | borrow =>
    simp [toJson, Json.Plain, Address.toJson]
  | borrowField mutable base field => simp [toJson, Json.Plain, plain_toJson base]
  | freeze inner | deref inner | not inner
  | signerAddress inner => simp [toJson, plain_toJson inner]
  | pack struct fields =>
    simpa [toJson, StructExpr.plain_toJson] using plain_fieldsToJson fields
  | call module function typeArgs args =>
    have typesPlain := TypeExpr.plain_allToJson typeArgs
    have argsPlain := plain_allToJson args
    cases module <;> by_cases empty : typeArgs.isEmpty = true <;>
      simp_all [toJson, optionalField]
  | binary op left right => simp [toJson, BinOp.toJson, plain_toJson left, plain_toJson right]
  | vector elem items =>
    simpa [toJson, TypeExpr.plain_toJson] using plain_allToJson items
  | moveTo struct signer value =>
    simp [toJson, StructExpr.plain_toJson, plain_toJson signer, plain_toJson value]
  | moveFrom struct addr | borrowGlobal struct mutable addr | existsAt struct addr =>
    simp [toJson, Json.Plain, StructExpr.plain_toJson, plain_toJson addr]

theorem Expr.plain_allToJson (exprs : List Expr) : ∀ json ∈ allToJson exprs, json.Plain := by
  cases exprs with
  | nil => simp [allToJson]
  | cons expr exprs => simpa [allToJson, plain_toJson expr] using plain_allToJson exprs

theorem Expr.plain_fieldsToJson (fields : List (String × Expr)) :
    ∀ json ∈ fieldsToJson fields, json.Plain := by
  cases fields with
  | nil => simp [fieldsToJson]
  | cons field fields =>
    obtain ⟨name, value⟩ := field
    simpa [fieldsToJson, plain_toJson value] using plain_fieldsToJson fields

end

theorem Expr.decoder_reads {room : Nat} (within : room ≤ nestingLimit) (expr : Expr) :
    Reads decoder room expr.toJson expr :=
  decoderBelow_reads (Nat.lt_succ_of_le within) within expr

theorem Expr.toJson_ne_null (expr : Expr) : expr.toJson ≠ .null := by
  cases expr <;> simp [toJson, Json.text, Json.tagged, Json.record]

theorem TypeExpr.toJson_ne_null (type : TypeExpr) : type.toJson ≠ .null := by
  cases type <;> simp [toJson, Json.text, Json.tagged, Json.record]

/-! ## Statements -/

theorem Binder.decoder_reads (binder : Binder) :
    Reads Binder.decoder room binder.toJson binder := by
  cases binder with
  | bind name => exact choice_tagged rfl fun inner _ => map_reads _ (text_reads inner name)
  | ignore => exact choice_plain rfl room

theorem unpackedDecoder_reads (field : String × Binder) :
    Reads unpackedDecoder room (unpackedToJson field) field := by
  refine record_reads rfl fun inner _ => ?_
  refine bind_get rfl (text_reads inner field.1) ?_
  exact bind_get rfl (Binder.decoder_reads inner field.2) rfl

theorem plain_unpackedToJson (field : String × Binder) : (unpackedToJson field).Plain := by
  obtain ⟨name, binder⟩ := field
  cases binder <;> simp [unpackedToJson, Binder.toJson]

theorem blockDecoder_reads {stmt : Decoder Stmt} {room : Nat} {block : List Stmt}
    (reads : ∀ inner < room, ReadsAll stmt inner (Stmt.allToJson block) block) :
    Reads (blockDecoder stmt) room (blockRecord (Stmt.allToJson block)) block := by
  refine record_reads rfl fun inner below => ?_
  have list : Reads (listOf stmt) inner (.array (Stmt.allToJson block)) block :=
    listOf_reads fun inside less => reads inside (by omega)
  refine (getD_reads rfl list).trans ?_
  simp [Json.depthValues]

mutual

theorem Stmt.decoderBelow_reads {height room : Nat} (below : room < height)
    (within : room ≤ nestingLimit) (stmt : Stmt) :
    Reads (decoderBelow height) room stmt.toJson stmt := by
  have exprRead : ∀ inner < room, ∀ expr : Expr, Reads Expr.decoder inner expr.toJson expr :=
    fun inner less => Expr.decoder_reads (by omega)
  cases height with
  | zero => omega
  | succ height =>
    cases stmt with
    | bind name type value =>
      cases type <;>
        (refine choice_tagged rfl fun _ less => record_reads rfl fun inside lesser => ?_
         refine bind_get rfl (text_reads inside name) ?_
         first
         | refine bind_getD_absent rfl ?_
         | refine bind_getD rfl
             (optional_reads (toJson_ne_null _) (decoder_reads (by omega) _)) ?_
         exact bind_get rfl (exprRead inside (by omega) value) rfl)
    | unpack struct fields value =>
      refine choice_tagged rfl fun _ less => record_reads rfl fun inside lesser => ?_
      refine bind_get rfl (StructExpr.decoder_reads (by omega) struct) ?_
      refine bind_get rfl (listOf_reads fun _ _ => readsAll_map (unpackedDecoder_reads _) fields) ?_
      exact bind_get rfl (exprRead inside (by omega) value) rfl
    | assign name value =>
      refine choice_tagged rfl fun _ less => record_reads rfl fun inside lesser => ?_
      refine bind_get rfl (text_reads inside name) ?_
      exact bind_get rfl (exprRead inside (by omega) value) rfl
    | write target value =>
      refine choice_tagged rfl fun _ less => record_reads rfl fun inside lesser => ?_
      refine bind_get rfl (exprRead inside (by omega) target) ?_
      exact bind_get rfl (exprRead inside (by omega) value) rfl
    | branch cond onTrue onFalse =>
      cases onFalse <;>
        (refine choice_tagged rfl fun _ less => record_reads rfl fun inside lesser => ?_
         refine bind_get rfl (exprRead inside (by omega) cond) ?_
         refine bind_get rfl (blockDecoder_reads fun innermost least => ?_) ?_
         · exact decoderBelow_readsAll (by omega) (by omega) onTrue
         first
         | exact bind_getD_absent rfl rfl
         | refine bind_getD rfl (optional_reads (by simp [blockRecord, Json.record])
             (blockDecoder_reads fun innermost least => ?_)) rfl
           exact decoderBelow_readsAll (by omega) (by omega) _)
    | loop cond body =>
      refine choice_tagged rfl fun _ less => record_reads rfl fun inside lesser => ?_
      refine bind_get rfl (exprRead inside (by omega) cond) ?_
      refine bind_get rfl (blockDecoder_reads fun innermost least => ?_) rfl
      exact decoderBelow_readsAll (by omega) (by omega) body
    | ret value =>
      refine choice_tagged rfl fun inner less => map_reads _ ?_
      cases value with
      | none => rfl
      | some value => exact optional_reads value.toJson_ne_null (exprRead inner less value)
    | abort code =>
      exact choice_tagged rfl fun inner less => map_reads _ (exprRead inner less code)
    | assert cond code =>
      refine choice_tagged rfl fun _ less => record_reads rfl fun inside lesser => ?_
      refine bind_get rfl (exprRead inside (by omega) cond) ?_
      exact bind_get rfl (word_reads inside code) rfl
    | eval value =>
      exact choice_tagged rfl fun inner less => map_reads _ (exprRead inner less value)

theorem Stmt.decoderBelow_readsAll {height room : Nat} (below : room < height)
    (within : room ≤ nestingLimit) (stmts : List Stmt) :
    ReadsAll (decoderBelow height) room (allToJson stmts) stmts := by
  cases stmts with
  | nil => exact readsAll_nil _ _
  | cons stmt stmts =>
    exact readsAll_cons (decoderBelow_reads below within stmt)
      (decoderBelow_readsAll below within stmts)

end

mutual

theorem Stmt.plain_toJson (stmt : Stmt) : stmt.toJson.Plain := by
  cases stmt with
  | bind name type value =>
    cases type <;> simp [toJson, optionalField, TypeExpr.plain_toJson, Expr.plain_toJson]
  | unpack struct fields value =>
    have fieldsPlain : ∀ json ∈ fields.map unpackedToJson, json.Plain :=
      List.forall_mem_map.mpr fun field _ => plain_unpackedToJson field
    simpa [toJson, StructExpr.plain_toJson, Expr.plain_toJson] using fieldsPlain
  | assign name value | write target value | abort code | assert cond code | eval value =>
    simp [toJson, Expr.plain_toJson]
  | branch cond onTrue onFalse =>
    have truePlain := plain_allToJson onTrue
    cases onFalse with
    | none => simpa [toJson, otherwiseToJson, blockRecord, Expr.plain_toJson] using truePlain
    | some onFalse =>
      have falsePlain := plain_allToJson onFalse
      simpa [toJson, otherwiseToJson, blockRecord, Expr.plain_toJson] using ⟨truePlain, falsePlain⟩
  | loop cond body =>
    simpa [toJson, blockRecord, Expr.plain_toJson] using plain_allToJson body
  | ret value => cases value <;> simp [toJson, Json.optional, Json.Plain, Expr.plain_toJson]

theorem Stmt.plain_allToJson (stmts : List Stmt) : ∀ json ∈ allToJson stmts, json.Plain := by
  cases stmts with
  | nil => simp [allToJson]
  | cons stmt stmts => simpa [allToJson, plain_toJson stmt] using plain_allToJson stmts

end

/-! ## Modules -/

section WithinLimit

variable {room : Nat}

theorem TypeParam.decoder_reads (room : Nat) (param : TypeParam) :
    Reads TypeParam.decoder room param.toJson param := by
  refine record_reads rfl fun inner _ => ?_
  refine bind_get rfl (text_reads inner param.name) ?_
  refine bind_getD rfl (AbilitySet.decoder_reads inner param.constraints) ?_
  exact bind_getD rfl (flag_reads inner param.phantom) rfl

variable (within : room ≤ nestingLimit)

include within

theorem TypedName.decoder_reads (field : TypedName) : Reads decoder room field.toJson field := by
  refine record_reads rfl fun inner below => ?_
  refine bind_get rfl (text_reads inner field.name) ?_
  exact bind_get rfl (TypeExpr.decoder_reads (by omega) field.type) rfl

theorem StructDecl.decoder_reads (decl : StructDecl) : Reads decoder room decl.toJson decl := by
  refine record_reads rfl fun inner below => ?_
  refine bind_get rfl (text_reads inner decl.name) ?_
  refine bind_getD rfl
    (listOf_reads fun inside _ => readsAll_map (TypeParam.decoder_reads inside) decl.typeParams) ?_
  refine bind_getD rfl (AbilitySet.decoder_reads inner decl.abilities) ?_
  exact bind_getD rfl
    (listOf_reads fun inside less => readsAll_map (TypedName.decoder_reads (by omega)) decl.fields)
    rfl

theorem FunctionDecl.decoder_reads (decl : FunctionDecl) : Reads decoder room decl.toJson decl := by
  refine record_reads rfl fun inner below => ?_
  have namesRead : ∀ names : List String,
      Reads (listOf text) inner (.array (names.map .text)) names :=
    fun names => listOf_reads fun inside _ => readsAll_map (text_reads inside) names
  have retRead : Reads (optional TypeExpr.decoder) inner (.optional decl.ret TypeExpr.toJson)
      decl.ret := by
    cases decl.ret with
    | none => rfl
    | some type => exact optional_reads type.toJson_ne_null (TypeExpr.decoder_reads (by omega) type)
  refine bind_get rfl (text_reads inner decl.name) ?_
  refine bind_getD rfl
    (listOf_reads fun inside _ => readsAll_map (TypeParam.decoder_reads inside) decl.typeParams) ?_
  refine bind_getD rfl
    (listOf_reads fun inside less => readsAll_map (TypedName.decoder_reads (by omega)) decl.params)
    ?_
  refine bind_getD rfl retRead ?_
  refine bind_getD rfl (namesRead decl.acquires) ?_
  refine bind_getD rfl (namesRead decl.attributes) ?_
  refine bind_getD rfl (blockDecoder_reads fun inside less => ?_) rfl
  exact Stmt.decoderBelow_readsAll (by omega) (by omega) decl.body

theorem Module.decoder_reads (module : Module) : Reads decoder room module.toJson module := by
  obtain ⟨address, name, structs, functions⟩ := module
  have structsRead : ∀ inner < room,
      Reads (listOf StructDecl.decoder) inner (.array (structs.map StructDecl.toJson)) structs :=
    fun inner below => listOf_reads fun inside less =>
      readsAll_map (StructDecl.decoder_reads (by omega)) structs
  have functionsRead : ∀ inner < room,
      Reads (listOf FunctionDecl.decoder) inner (.array (functions.map FunctionDecl.toJson))
      functions :=
    fun inner below => listOf_reads fun inside less =>
      readsAll_map (FunctionDecl.decoder_reads (by omega)) functions
  have addressRead : ∀ inner (address : Address),
      Reads (optional Address.decoder) inner address.toJson (some address) :=
    fun inner address => optional_reads (by simp [Address.toJson, Json.text])
      (Address.decoder_reads inner address)
  cases address <;>
    (refine record_reads rfl fun inner below => ?_
     first | refine bind_getD_absent rfl ?_ | refine bind_getD rfl (addressRead inner _) ?_
     refine bind_get rfl (text_reads inner name) ?_
     refine bind_getD rfl (structsRead inner below) ?_
     exact bind_getD rfl (functionsRead inner below) rfl)

end WithinLimit

theorem TypeParam.plain_toJson (param : TypeParam) : param.toJson.Plain := by
  simp [toJson, Json.Plain, AbilitySet.plain_toJson]

theorem TypedName.plain_toJson (field : TypedName) : field.toJson.Plain := by
  simp [toJson, TypeExpr.plain_toJson]

theorem StructDecl.plain_toJson (decl : StructDecl) : decl.toJson.Plain := by
  simp [toJson, AbilitySet.plain_toJson, TypeParam.plain_toJson, TypedName.plain_toJson]

theorem FunctionDecl.plain_toJson (decl : FunctionDecl) : decl.toJson.Plain := by
  have retPlain : (Json.optional decl.ret TypeExpr.toJson).Plain := by
    cases decl.ret with
    | none => simp [Json.optional, Json.Plain]
    | some type => exact type.plain_toJson
  have bodyPlain := Stmt.plain_allToJson decl.body
  simpa [toJson, blockRecord, TypeParam.plain_toJson, TypedName.plain_toJson] using ⟨retPlain,
    bodyPlain⟩

theorem Module.plain_toJson (module : Module) : module.toJson.Plain := by
  obtain ⟨address, name, structs, functions⟩ := module
  cases address <;>
    simp [toJson, optionalField, Address.toJson, StructDecl.plain_toJson, FunctionDecl.plain_toJson]

/-- The document of a module is read back as the module, with all its declarations, types,
statements and expressions, if it nests no deeper than the limit. A deeper one is refused. -/
theorem Module.read?_write (module : Module) :
    read? module.write = if module.toJson.depth ≤ nestingLimit then some module else none := by
  rw [read?, write, Decoder.readText, Json.parse?_pretty module.plain_toJson]
  exact decoder_reads (Nat.le_refl nestingLimit) module

end Custody
