/-!
# Kinds of types

A schema has six kinds of named types, and a document three kinds of operations.

## What is here

* `TypeKind` — the kinds of types, and what may be done with a type of each.
* `BuiltinScalar` — the scalars every schema has.
* `OperationKind` — the kinds of operations.
-/

set_option autoImplicit false

namespace ResponseTypes

/-! ## Types -/

/-- The kind of a named type. -/
inductive TypeKind where
  | scalar
  | enum
  | object
  | interface
  | union
  | inputObject
deriving DecidableEq, Repr

namespace TypeKind

/-- What a kind is called. -/
def description : TypeKind → String
  | .scalar => "scalar"
  | .enum => "enum"
  | .object => "object"
  | .interface => "interface"
  | .union => "union"
  | .inputObject => "input object"

/-- A value of a composite type has fields of its own to select. -/
def isComposite : TypeKind → Bool
  | .object | .interface | .union => true
  | _ => false

/-- A value of an abstract type has one of several object types. -/
def isAbstract : TypeKind → Bool
  | .interface | .union => true
  | _ => false

/-- Types that a variable or an input field may have. -/
def isInput : TypeKind → Bool
  | .scalar | .enum | .inputObject => true
  | _ => false

/-- Types that a selected field may have. -/
def isOutput : TypeKind → Bool
  | .inputObject => false
  | _ => true

end TypeKind

/-! ## Scalars that every schema has -/

/-- The scalars every schema has. -/
inductive BuiltinScalar where
  | string
  | int
  | float
  | boolean
  | id
deriving DecidableEq, Repr

namespace BuiltinScalar

/-- The built-in scalars in the order in which they are added to a schema. -/
def all : List BuiltinScalar :=
  [.string, .int, .float, .boolean, .id]

/-- The name of a built-in scalar. -/
def name : BuiltinScalar → String
  | .string => "String"
  | .int => "Int"
  | .float => "Float"
  | .boolean => "Boolean"
  | .id => "ID"

/-- The built-in scalar of a name. -/
def ofName? (s : String) : Option BuiltinScalar :=
  all.find? fun b => b.name == s

end BuiltinScalar

/-! ## Operations -/

/-- The kind of an operation. -/
inductive OperationKind where
  | query
  | mutation
  | subscription
deriving DecidableEq, Repr

namespace OperationKind

/-- The kinds of operations. -/
def all : List OperationKind :=
  [.query, .mutation, .subscription]

/-- The keyword that introduces an operation. -/
def keyword : OperationKind → String
  | .query => "query"
  | .mutation => "mutation"
  | .subscription => "subscription"

/-- What is put behind the name of an operation to name the type of its result. -/
def typeSuffix : OperationKind → String
  | .query => "Query"
  | .mutation => "Mutation"
  | .subscription => "Subscription"

/-- The kind of a keyword. -/
def ofKeyword? (s : String) : Option OperationKind :=
  all.find? fun k => k.keyword == s

end OperationKind

end ResponseTypes
