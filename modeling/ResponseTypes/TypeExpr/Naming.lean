import ResponseTypes.Error
import ResponseTypes.Name.Registry
import ResponseTypes.Options
import ResponseTypes.TypeExpr.Basic

/-!
# Types as type expressions

A resolved type says which of its levels are non-null; a type expression says which of its levels
are nullable.  Scalars become keywords of the target, or names if they are custom ones; enums and
input objects keep their names; composite types are called by what the place where they are used
says.

## What is here

* `CompositeNaming` — what composite types are called.
* `Options.scalarExpr`, `Options.unmappedScalar?` — scalars.
* `Options.typeExpr`, `Options.innerTypeExpr` — types.
-/

set_option autoImplicit false

namespace ResponseTypes

/-! ## Names of composite types -/

/-- What a composite type is called: by its own name, by the response key of its selection in a
scope, or by a name that has been claimed for it. -/
inductive CompositeNaming where
  | own
  | byKey (scope : List String) (key : String)
  | claimed (name : String)
deriving DecidableEq, Repr

/-- The name of a composite type. -/
def CompositeNaming.nameOf : CompositeNaming → String → String
  | .own, name => name
  | .byKey scope key, _ => compositeTypeName scope key
  | .claimed name, _ => name

namespace Options

/-! ## Scalars -/

/-- The keyword of a target for the values of a built-in scalar. -/
def builtinKeyword (o : Options) : BuiltinScalar → String
  | .string | .id => o.targetSyntax.stringType
  | .int | .float => o.targetSyntax.numberType
  | .boolean => o.targetSyntax.booleanType

/-- A scalar as an expression: a keyword, or the name of a custom scalar. -/
def scalarExpr (o : Options) (name : String) : TypeExpr :=
  match BuiltinScalar.ofName? name with
  | some b => .named (o.builtinKeyword b)
  | none =>
    if o.passesCustomScalars then .named o.targetSyntax.anyType
    else .named (o.customScalarPrefix ++ name)

/-- The custom scalar that a type refers to by name, for which there is no declaration. -/
def unmappedScalar? (o : Options) (t : ResolvedType) : Option String :=
  match t.innermost with
  | (.scalar, name) =>
    if (BuiltinScalar.ofName? name).isSome || o.passesCustomScalars then none else some name
  | _ => none

/-! ## Types -/

/-- A named type as an expression. -/
def namedExpr (o : Options) (naming : CompositeNaming) (kind : TypeKind) (name : String) :
    TypeExpr :=
  match kind with
  | .scalar => o.scalarExpr name
  | .enum | .inputObject => .named name
  | .object | .interface | .union => .named (naming.nameOf name)

/-- The expression of a type that is non-null at its outermost level, without that mark.  A second
mark directly under the first one cannot be resolved. -/
def innerTypeExpr (o : Options) (naming : CompositeNaming) :
    ResolvedType → Except GenerationError TypeExpr
  | .named kind name => .ok (o.namedExpr naming kind name)
  | .list (.nonNull t) => (o.innerTypeExpr naming t).map .array
  | .list (.list t) => (o.innerTypeExpr naming (.list t)).map fun e => .array (.nullable e)
  | .list (.named kind name) => .ok (.array (.nullable (o.namedExpr naming kind name)))
  | .nonNull t => .error (.invalidWrapperUsage (.nonNull t))

/-- The expression of a type: it is nullable at every level that is not marked as non-null. -/
def typeExpr (o : Options) (naming : CompositeNaming) :
    ResolvedType → Except GenerationError TypeExpr
  | .nonNull t => o.innerTypeExpr naming t
  | t => (o.innerTypeExpr naming t).map .nullable

end Options
end ResponseTypes
