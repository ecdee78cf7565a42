import ResponseTypes.ResolvedType
import ResponseTypes.TypeRef

/-!
# Type definitions

The definitions a schema is made of: scalars, enums, objects, interfaces, unions and input objects.

## What is here

* The records of each kind of definition, and `TypeDefinition`, which is one of them.
* `TypeDefinition.name`, `kind`, `description?`, `fields?` — what the kinds have in common.
* `TypeDefinition.resolved` — a definition as a type.
-/

set_option autoImplicit false

namespace ResponseTypes

/-! ## Parts of definitions -/

/-- A field of an object or an interface. -/
structure FieldDefinition where
  name : String
  type : TypeRef
  description? : Option String := none
  deprecation? : Option String := none
deriving DecidableEq, Repr

/-- A field of an input object. -/
structure InputField where
  name : String
  type : TypeRef
  description? : Option String := none
  default? : Option String := none
deriving DecidableEq, Repr

/-- A value of an enum. -/
structure EnumValue where
  name : String
  description? : Option String := none
  deprecation? : Option String := none
deriving DecidableEq, Repr

/-! ## Definitions -/

/-- A scalar. -/
structure ScalarDefinition where
  name : String
  description? : Option String := none
deriving DecidableEq, Repr

/-- An enum with its values. -/
structure EnumDefinition where
  name : String
  description? : Option String := none
  values : List EnumValue := []
deriving DecidableEq, Repr

/-- An object with its fields and the interfaces it declares. -/
structure ObjectDefinition where
  name : String
  description? : Option String := none
  fields : List FieldDefinition := []
  interfaces : List String := []
deriving DecidableEq, Repr

/-- An interface with its fields. -/
structure InterfaceDefinition where
  name : String
  description? : Option String := none
  fields : List FieldDefinition := []
deriving DecidableEq, Repr

/-- A union with its members. -/
structure UnionDefinition where
  name : String
  description? : Option String := none
  members : List String := []
deriving DecidableEq, Repr

/-- An input object with its fields. -/
structure InputObjectDefinition where
  name : String
  description? : Option String := none
  fields : List InputField := []
deriving DecidableEq, Repr

/-- A type definition of any kind. -/
inductive TypeDefinition where
  | scalar (d : ScalarDefinition)
  | enum (d : EnumDefinition)
  | object (d : ObjectDefinition)
  | interface (d : InterfaceDefinition)
  | union (d : UnionDefinition)
  | inputObject (d : InputObjectDefinition)
deriving DecidableEq, Repr

namespace TypeDefinition

/-- The name a definition defines. -/
def name : TypeDefinition → String
  | .scalar d => d.name
  | .enum d => d.name
  | .object d => d.name
  | .interface d => d.name
  | .union d => d.name
  | .inputObject d => d.name

/-- The kind of a definition. -/
def kind : TypeDefinition → TypeKind
  | .scalar _ => .scalar
  | .enum _ => .enum
  | .object _ => .object
  | .interface _ => .interface
  | .union _ => .union
  | .inputObject _ => .inputObject

/-- The description of a definition. -/
def description? : TypeDefinition → Option String
  | .scalar d => d.description?
  | .enum d => d.description?
  | .object d => d.description?
  | .interface d => d.description?
  | .union d => d.description?
  | .inputObject d => d.description?

/-- The fields that can be selected on a type, if it is an object or an interface. -/
def fields? : TypeDefinition → Option (List FieldDefinition)
  | .object d => some d.fields
  | .interface d => some d.fields
  | _ => none

/-- The object definition, if it is one. -/
def object? : TypeDefinition → Option ObjectDefinition
  | .object d => some d
  | _ => none

/-- A definition as a type. -/
def resolved (d : TypeDefinition) : ResolvedType :=
  .named d.kind d.name

end TypeDefinition
end ResponseTypes
