import ResponseTypes.Json.Problem
import ResponseTypes.ResolvedType
import ResponseTypes.TypeRef

/-!
# Errors

What can go wrong, from reading the input to writing declarations.  An error says what happened; the
text of a message is written in one place for each kind of error.

## What is here

* `ParseError` — a text that cannot be read.
* `SchemaError` — a name that is missing or of the wrong kind, or a schema that is not valid.
* `GenerationError` — everything that stops a declaration, or all of them.
* `GenerationError.isFatal`, `GenerationError.rootCause`.
-/

set_option autoImplicit false

namespace ResponseTypes

/-! ## Reading -/

/-- A text that cannot be read. -/
inductive ParseError where
  | json (problem : Json.Problem)
  | invalidTypeRef (value reason : String)
deriving DecidableEq, Repr

/-- The error of a malformed type reference. -/
def ParseError.ofMalformed (e : TypeRef.Malformed) : ParseError :=
  .invalidTypeRef e.value e.reason

/-- The text of an error of reading. -/
def ParseError.message : ParseError → String
  | .json problem => "JSON parsing error: " ++ problem.message
  | .invalidTypeRef value reason => "invalid type reference '" ++ value ++ "': " ++ reason

/-! ## Schemas -/

/-- What a name was expected to be. -/
inductive Expectation where
  | objectType
  | interface
  | outputType
  | inputType
deriving DecidableEq, Repr

/-- An expectation in words. -/
def Expectation.phrase : Expectation → String
  | .objectType => "an object type"
  | .interface => "an interface"
  | .outputType => "an output type"
  | .inputType => "an input type"

/-- An error of looking something up in a schema or a document, or of validating a schema. -/
inductive SchemaError where
  | typeNotFound (name : String)
  | fieldNotFound (typeName field : String)
  | fragmentNotFound (name : String)
  | missingRootType (operations : String)
  | wrongTypeKind (name : String) (expected : Expectation)
  | nestedNonNull (ref : TypeRef)
  | validation (reason : String)
deriving DecidableEq, Repr

/-- The text of an error of a schema. -/
def SchemaError.message : SchemaError → String
  | .typeNotFound name => "type '" ++ name ++ "' not found"
  | .fieldNotFound typeName field =>
    "field '" ++ field ++ "' not found on type '" ++ typeName ++ "'"
  | .fragmentNotFound name => "fragment '" ++ name ++ "' not found"
  | .missingRootType operations =>
    "schema has no root type for " ++ operations ++ " operations"
  | .wrongTypeKind name expected => "type '" ++ name ++ "' is not " ++ expected.phrase
  | .nestedNonNull ref =>
    "invalid type reference '" ++ ref.display ++ "': non-null cannot wrap non-null"
  | .validation reason => "validation error: " ++ reason

/-! ## Generation -/

/-- An error that stops a declaration, or the generation as a whole. -/
inductive GenerationError where
  /-- A text could not be read. -/
  | parse (e : ParseError)
  /-- A lookup failed, or the schema is not valid. -/
  | schema (e : SchemaError)
  /-- An operation whose kind is none of the known ones. -/
  | unsupportedOperationKind (operation kind : String)
  /-- Two selections share a response key and differ in type. -/
  | fieldMergeConflict (key : String) (first second : ResolvedType)
  /-- A non-null type stands where its wrapper should have been taken off. -/
  | invalidWrapperUsage (type : ResolvedType)
  /-- Declarations nest deeper than is allowed for. -/
  | endlessNesting (name : String)
  /-- An error with the name of the declaration it stopped. -/
  | inDeclaration (name : String) (source : GenerationError)
  /-- The declarations that could not be generated. -/
  | declarations (failures : List GenerationError)

deriving instance Repr for GenerationError

namespace GenerationError

/-- The text of an error of generation. -/
def message : GenerationError → String
  | .parse e => "parse error: " ++ e.message
  | .schema e => "schema error: " ++ e.message
  | .unsupportedOperationKind operation kind =>
    "unsupported operation type '" ++ kind ++ "' for operation '" ++ operation ++ "'"
  | .fieldMergeConflict key first second =>
    "conflicting types for response key '" ++ key ++ "': '" ++ first.display ++ "' and '" ++
      second.display ++ "'"
  | .invalidWrapperUsage type =>
    "non-null type '" ++ type.display ++ "' cannot be resolved as a nullable type"
  | .endlessNesting name => "declaration '" ++ name ++ "' nests without end"
  | .inDeclaration name source => "in declaration '" ++ name ++ "': " ++ source.message
  | .declarations [] => "0 declaration(s) failed to generate"
  | .declarations (first :: rest) =>
    toString (rest.length + 1) ++ " declaration(s) failed to generate; first: " ++ first.message

/-- A fatal error stops the generation as a whole and not only one declaration. -/
def isFatal : GenerationError → Bool
  | .unsupportedOperationKind _ _ => true
  | .invalidWrapperUsage _ => true
  | .inDeclaration _ source => source.isFatal
  | _ => false

/-- The error without the declarations it is wrapped in. -/
def rootCause : GenerationError → GenerationError
  | .inDeclaration _ source => source.rootCause
  | e => e

end GenerationError

/-! ## Passing errors on -/

/-- An error of reading as an error of generation. -/
def ParseError.lift {α : Type} : Except ParseError α → Except GenerationError α
  | .ok a => .ok a
  | .error e => .error (.parse e)

/-- An error of a schema as an error of generation. -/
def SchemaError.lift {α : Type} : Except SchemaError α → Except GenerationError α
  | .ok a => .ok a
  | .error e => .error (.schema e)

end ResponseTypes
