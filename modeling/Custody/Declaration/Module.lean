import Custody.Ability
import Custody.Declaration.Body
/-!
# Modules

Declarations of structs and functions, and the modules that hold them. The constructors further down
assemble declarations piece by piece.
-/

namespace Custody

/-- A type parameter with the abilities its arguments must carry. A phantom parameter does not occur
in the contents of the struct it belongs to. -/
structure TypeParam where
  name : String
  constraints : AbilitySet := .none
  phantom : Bool := false

/-- A field or a parameter: a name and its type. -/
structure TypedName where
  name : String
  type : TypeExpr

/-- A struct as declared. -/
structure StructDecl where
  name : String
  typeParams : List TypeParam := []
  abilities : AbilitySet := .none
  fields : List TypedName := []

/-- A function as declared. -/
structure FunctionDecl where
  name : String
  typeParams : List TypeParam := []
  params : List TypedName := []
  /-- No type means that the function returns the unit value. -/
  ret : Option TypeExpr := none
  /-- Structs of the same module that the function may reach in storage. -/
  acquires : List String := []
  /-- Marks for the host; they carry no meaning here. -/
  attributes : List String := []
  body : List Stmt := []

/-- A module as declared. -/
structure Module where
  /-- Where the module is published; carried for the host. -/
  address : Option Address := none
  name : String
  structs : List StructDecl := []
  functions : List FunctionDecl := []

variable (decl : FunctionDecl)

def FunctionDecl.hasAttribute (mark : String) : Bool :=
  decide (mark ∈ decl.attributes)

namespace Module

/-- The first struct of that name. -/
def struct? (module : Module) (name : String) : Option StructDecl :=
  module.structs.find? (·.name = name)

/-- The first function of that name. -/
def function? (module : Module) (name : String) : Option FunctionDecl :=
  module.functions.find? (·.name = name)

end Module

/-! ## Assembling declarations -/

namespace Module

def publishedAt (module : Module) (address : Address) : Module :=
  { module with address := some address }

def withStruct (module : Module) (decl : StructDecl) : Module :=
  { module with structs := module.structs ++ [decl] }

def withFunction (module : Module) (decl : FunctionDecl) : Module :=
  { module with functions := module.functions ++ [decl] }

end Module

def TypeParam.asPhantom (param : TypeParam) : TypeParam := { param with phantom := true }

namespace StructDecl

def withAbilities (decl : StructDecl) (abilities : AbilitySet) : StructDecl :=
  { decl with abilities := abilities }

def withTypeParam (decl : StructDecl) (param : TypeParam) : StructDecl :=
  { decl with typeParams := decl.typeParams ++ [param] }

def withField (decl : StructDecl) (name : String) (type : TypeExpr) : StructDecl :=
  { decl with fields := decl.fields ++ [⟨name, type⟩] }

end StructDecl

namespace FunctionDecl

def withTypeParam (param : TypeParam) : FunctionDecl :=
  { decl with typeParams := decl.typeParams ++ [param] }

def withParam (name : String) (type : TypeExpr) : FunctionDecl :=
  { decl with params := decl.params ++ [⟨name, type⟩] }

def returning (type : TypeExpr) : FunctionDecl :=
  { decl with ret := some type }

def acquiring (struct : String) : FunctionDecl :=
  { decl with acquires := decl.acquires ++ [struct] }

def withAttribute (mark : String) : FunctionDecl :=
  { decl with attributes := decl.attributes ++ [mark] }

def withBody (body : List Stmt) : FunctionDecl :=
  { decl with body := body }

end FunctionDecl

namespace StructExpr

def named (name : String) : StructExpr := { name := name }

def generic (name : String) (args : List TypeExpr) : StructExpr := { name := name, args := args }

def inModule (struct : StructExpr) (module : String) : StructExpr :=
  { struct with module := some module }

end StructExpr

namespace Expr

/-- The literal of a small address. -/
def smallAddress (n : BitVec 64) : Expr := .address (.ofNat n.toNat)

/-- A call of a function of the same module, without type arguments. -/
def callLocal (function : String) (args : List Expr) : Expr := .call none function [] args

end Expr

end Custody
