import ResponseTypes.Declaration.Basic
import ResponseTypes.Emission.Session

/-!
# Declarations of inputs and enums

Enums, input objects and the variables of operations are declared as they are defined.  A property
may be left out when null may stand for it.
-/

set_option autoImplicit false

namespace ResponseTypes

/-- The declaration of an enum. -/
def EnumDefinition.declaration (d : EnumDefinition) : Declaration :=
  .build d.name d.description?
    (.enum (d.values.map fun v => { value := v.name, description? := v.description? })) []

namespace EmissionContext

/-- The property of an input field or a variable. -/
def inputProperty (x : EmissionContext) (name : String) (t : ResolvedType)
    (description? : Option String) : Emit Property := do
  let type ← Emit.typeExpr x.options .own t
  return { name, isOptional := !t.isNonNull, type, description? }

/-- The properties of input fields. -/
def inputProperties (x : EmissionContext) : List InputField → Emit (List Property)
  | [] => return []
  | f :: fs => do
    let t ← Emit.ofExcept (SchemaError.lift (x.schema.resolve f.type))
    let p ← x.inputProperty f.name t f.description?
    let ps ← x.inputProperties fs
    return p :: ps

/-- The declaration of an input object. -/
def inputDeclaration (x : EmissionContext) (d : InputObjectDefinition) : Emit Declaration := do
  let properties ← x.inputProperties d.fields
  return .build d.name d.description? (.object { properties }) []

/-- The properties of variables. -/
def variableProperties (x : EmissionContext) : List Variable → Emit (List Property)
  | [] => return []
  | v :: vs => do
    let p ← x.inputProperty v.name v.type none
    let ps ← x.variableProperties vs
    return p :: ps

/-- The declaration of the variables of an operation. -/
def variablesDeclaration (x : EmissionContext) (o : Operation) : Emit Declaration := do
  let properties ← x.variableProperties o.vars
  return .build o.variablesTypeName none (.object { properties }) []

end EmissionContext
end ResponseTypes
