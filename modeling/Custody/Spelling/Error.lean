import Custody.Address
import Custody.Spelling.Data
import Custody.Ty
/-!
# Faults of spellings

Why a word of the command line does not spell a function, a type or a value.
-/

namespace Custody

inductive SpellingFault where
  | notFunction
  | typeNameExpected
  /-- The reader of types ran out of steps before the text ended. -/
  | unfinished
  | separatorExpected
  | vectorArity
  | unknownType (name : String)
  | trailing (rest : String)
  | notUnsigned (shown : String)
  | notInteger (data : Data)
  | tooLarge (value : Nat) (ty : Ty)
  | notBool (data : Data)
  | notAddress (data : Data)
  | badAddress (error : Address.ParseError)
  | notArray (data : Data)
  | notObject (tag : StructTag) (data : Data)
  | unknownStruct (tag : StructTag)
  | noField (tag : StructTag) (field : String)
  | missingField (tag : StructTag) (field : String)
  | signer
  | unspellable (ty : Ty)

namespace SpellingFault

def describe : SpellingFault → String
  | .notFunction => "expected `Module::function`"
  | .typeNameExpected => "expected a type name"
  | .unfinished => "type not read to its end"
  | .separatorExpected => "expected `,` or `>`"
  | .vectorArity => "`vector` takes exactly one type argument"
  | .unknownType name => "unknown type `" ++ name ++ "`; structs are written `Module::Name`"
  | .trailing rest => "unexpected `" ++ rest ++ "`"
  | .notUnsigned shown => "`" ++ shown ++ "` is not an unsigned integer"
  | .notInteger data => "expected an integer, got " ++ data.render
  | .tooLarge value ty => toString value ++ " does not fit in `" ++ ty.render ++ "`"
  | .notBool data => "expected a bool, got " ++ data.render
  | .notAddress data => "expected an address, got " ++ data.render
  | .badAddress error => error.message
  | .notArray data => "expected an array, got " ++ data.render
  | .notObject tag data => "expected an object for `" ++ tag.render ++ "`, got " ++ data.render
  | .unknownStruct tag => "unknown struct `" ++ tag.render ++ "`"
  | .noField tag field => "`" ++ tag.render ++ "` has no field `" ++ field ++ "`"
  | .missingField tag field => "missing field `" ++ field ++ "` of `" ++ tag.render ++ "`"
  | .signer => "signers are supplied by `--sender`"
  | .unspellable ty => "values of type `" ++ ty.render ++ "` cannot be given on the command line"

end SpellingFault

/-- A word that was refused. -/
structure SpellingError where
  input : String
  fault : SpellingFault

namespace SpellingError

def message (error : SpellingError) : String :=
  "invalid argument `" ++ error.input ++ "`: " ++ error.fault.describe

def code : String := "slate::cli::argument"

end SpellingError

end Custody
