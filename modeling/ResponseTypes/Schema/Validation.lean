import ResponseTypes.Schema.Basic

/-!
# Valid schemas

A schema is valid when names are unique and every reference leads to a definition of the right kind:
roots are objects, declared interfaces are interfaces, members of unions are objects, fields have
output types and input fields have input types.

The checks run in a fixed order — names, roots, then the definitions one after the other — and the
first that fails is reported.

## What is here

* `Schema.validate` — all checks, from `validateNames`, `validateRoots` and `validateType`.
-/

set_option autoImplicit false

namespace ResponseTypes
namespace Schema

/-! ## Unique names -/

/-- Runs a check for each element of a list in order.  An element whose name was seen before is
reported as a duplicate instead. -/
def checkUnique {α : Type} (name : α → String) (duplicate : α → String)
    (check : α → Except SchemaError Unit) : List String → List α → Except SchemaError Unit
  | _, [] => .ok ()
  | seen, a :: as =>
    if seen.contains (name a) then .error (.validation (duplicate a))
    else do
      check a
      checkUnique name duplicate check (name a :: seen) as

/-- Every type name is defined once. -/
def validateNames (s : Schema) : Except SchemaError Unit :=
  checkUnique TypeDefinition.name (fun d => "Duplicate type name '" ++ d.name ++ "'")
    (fun _ => .ok ()) [] s.types

/-! ## References -/

/-- A name is defined, and its kind is as expected. -/
def checkKind (s : Schema) (name : String) (isExpected : TypeKind → Bool)
    (expected : Expectation) : Except SchemaError Unit :=
  match s.get? name with
  | some d => if isExpected d.kind then .ok () else .error (.wrongTypeKind name expected)
  | none => .error (.typeNotFound name)

/-- Runs a check for each element of a list in order. -/
def checkAll {α : Type} (check : α → Except SchemaError Unit) : List α → Except SchemaError Unit
  | [] => .ok ()
  | a :: as => do
    check a
    checkAll check as

/-- A type reference can be resolved, and the definition at its heart is as expected. -/
def checkRef (s : Schema) (ref : TypeRef) (isExpected : TypeKind → Bool)
    (expected : Expectation) : Except SchemaError Unit := do
  let _ ← s.resolve ref
  match s.get? ref.innermost with
  | some d => if isExpected d.kind then .ok () else .error (.wrongTypeKind d.name expected)
  | none => .error (.typeNotFound ref.innermost)

/-- The types that operations start from are objects. -/
def validateRoots (s : Schema) : Except SchemaError Unit :=
  checkAll (fun name => s.checkKind name (· == .object) .objectType)
    (s.queryType :: (s.mutationType?.toList ++ s.subscriptionType?.toList))

/-! ## Definitions -/

/-- The fields of an object or an interface have distinct names and output types. -/
def validateFields (s : Schema) (typeName : String) (fields : List FieldDefinition) :
    Except SchemaError Unit :=
  checkUnique FieldDefinition.name
    (fun f => "Duplicate field '" ++ f.name ++ "' on type '" ++ typeName ++ "'")
    (fun f => s.checkRef f.type TypeKind.isOutput .outputType) [] fields

/-- The fields of an input object have distinct names and input types. -/
def validateInputFields (s : Schema) (typeName : String) (fields : List InputField) :
    Except SchemaError Unit :=
  checkUnique InputField.name
    (fun f => "Duplicate field '" ++ f.name ++ "' on input type '" ++ typeName ++ "'")
    (fun f => s.checkRef f.type TypeKind.isInput .inputType) [] fields

/-- The values of an enum have distinct names. -/
def validateValues (typeName : String) (values : List EnumValue) : Except SchemaError Unit :=
  checkUnique EnumValue.name
    (fun v => "Duplicate enum value name '" ++ v.name ++ "' in enum '" ++ typeName ++ "'")
    (fun _ => .ok ()) [] values

/-- A definition is valid by itself. -/
def validateType (s : Schema) : TypeDefinition → Except SchemaError Unit
  | .scalar _ => .ok ()
  | .enum d => validateValues d.name d.values
  | .object d => do
    s.validateFields d.name d.fields
    checkAll (fun name => s.checkKind name (· == .interface) .interface) d.interfaces
  | .interface d => s.validateFields d.name d.fields
  | .union d => checkAll (fun name => s.checkKind name (· == .object) .objectType) d.members
  | .inputObject d => s.validateInputFields d.name d.fields

/-- A schema is valid. -/
def validate (s : Schema) : Except SchemaError Unit := do
  s.validateNames
  s.validateRoots
  checkAll s.validateType s.types

end Schema
end ResponseTypes
