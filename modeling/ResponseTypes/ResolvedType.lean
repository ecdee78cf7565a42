import ResponseTypes.TypeKind

/-!
# Resolved types

A resolved type is a type reference in which the name at the heart is known to be defined, together
with the kind of its definition.

## What is here

* `ResolvedType` — resolved types, and `ResolvedType.display` — how they are written.
* `ResolvedType.innermost` — the kind and the name at the heart.
-/

set_option autoImplicit false

namespace ResponseTypes

/-- A type whose name has been looked up in a schema. -/
inductive ResolvedType where
  | named (kind : TypeKind) (name : String)
  | list (element : ResolvedType)
  | nonNull (inner : ResolvedType)
deriving DecidableEq, Repr

namespace ResolvedType

/-- The named type at the heart of a type, without its wrappers. -/
def innermost : ResolvedType → TypeKind × String
  | .named kind name => (kind, name)
  | .list t => t.innermost
  | .nonNull t => t.innermost

/-- The kind at the heart of a type. -/
def innermostKind (t : ResolvedType) : TypeKind :=
  t.innermost.1

/-- The name at the heart of a type. -/
def innermostName (t : ResolvedType) : String :=
  t.innermost.2

/-- A type whose values are never null. -/
def isNonNull : ResolvedType → Bool
  | .nonNull _ => true
  | _ => false

/-- A type whose values, or the values in its lists, have fields of their own. -/
def isComposite (t : ResolvedType) : Bool :=
  t.innermostKind.isComposite

/-- A type as it is written. -/
def display : ResolvedType → String
  | .named _ name => name
  | .list t => "[" ++ t.display ++ "]"
  | .nonNull t => t.display ++ "!"

end ResolvedType
end ResponseTypes
