import ResponseTypes.Declaration.Layout
import ResponseTypes.Document.Interchange
import ResponseTypes.Emission.Inputs
import ResponseTypes.Emission.Selections
import ResponseTypes.Schema.Validation
import ResponseTypes.Selection.Compilation

/-!
# Generating declarations

A compiled document is generated in a fixed order: the enums and input objects it uses, for each
operation its variables and its result, and the fragments.  All of these names are taken before the
first declaration is built.  A declaration that fails is reported and left out, unless the error is
fatal.

## What is here

* `Expected` — a declaration that is to be generated; `Compilation.expected` lists them.
* `Diagnostic` and `Output`.
* `Compilation.generate` — the declarations, the file and the diagnostics of a compiled document;
  `Compilation.generateWithin` — the same within any number of levels.
* `generate`, `generateSource`, `generateFromJson` — from schema and document.
-/

set_option autoImplicit false

namespace ResponseTypes

/-! ## What is expected -/

/-- A declaration that is to be generated. -/
inductive Expected where
  | input (typeName : String)
  | vars (operation : Operation)
  | result (operation : Operation)
  | fragment (fragment : Fragment)
deriving DecidableEq, Repr

namespace Expected

/-- The name of a declaration that is to be generated. -/
def name : Expected → String
  | .input typeName => typeName
  | .vars o => o.variablesTypeName
  | .result o => o.typeName
  | .fragment f => f.name

/-- Builds a declaration that is to be generated.  `levels` says how many levels are allowed for
below a selection set. -/
def declaration (x : EmissionContext) (levels : SelectionSet → Nat) : Expected → Emit Declaration
  | .input typeName =>
    match x.schema.get? typeName with
    | some (.enum d) => return d.declaration
    | some (.inputObject d) => x.inputDeclaration d
    | _ => throw (.schema (.typeNotFound typeName))
  | .vars o => x.variablesDeclaration o
  | .result o => x.topLevelWithin (levels o.set) o.typeName none o.set
  | .fragment f => x.topLevelWithin (levels f.set) f.name none f.set

/-- The declarations of an operation: that of its variables, if it has any, and that of its
result. -/
def ofOperation (o : Operation) : List Expected :=
  if o.vars.isEmpty then [.result o] else [.vars o, .result o]

end Expected

/-- The declarations of a compiled document in the order in which they are generated. -/
def Compilation.expected (c : Compilation) : List Expected :=
  c.typesUsed.map .input ++ c.operations.flatMap Expected.ofOperation ++
    c.fragments.map .fragment

/-! ## Output -/

/-- What is reported about a generation that was not stopped. -/
inductive Diagnostic where
  /-- A custom scalar is referred to by a name that is not declared. -/
  | unresolvedScalar (name : String)
  /-- A declaration is left out. -/
  | declarationFailed (e : GenerationError)
deriving Repr

namespace Diagnostic

/-- The text of a diagnostic. -/
def message : Diagnostic → String
  | .unresolvedScalar name => "custom scalar '" ++ name ++ "' has no built-in mapping"
  | .declarationFailed e => e.message

/-- The error of a declaration that is left out. -/
def failure? : Diagnostic → Option GenerationError
  | .unresolvedScalar _ => none
  | .declarationFailed e => some e

end Diagnostic

/-- The result of a generation. -/
structure Output where
  declarations : List Declaration := []
  text : String := ""
  diagnostics : List Diagnostic := []
deriving Repr

namespace Output

/-- The first declaration of a name, nested ones included. -/
def declaration? (o : Output) (name : String) : Option Declaration :=
  o.declarations.findSome? fun d => d.find? name

/-- The errors of the declarations that are left out. -/
def failures (o : Output) : List GenerationError :=
  o.diagnostics.filterMap Diagnostic.failure?

/-- The file, if nothing is left out. -/
def source (o : Output) : Except GenerationError String :=
  if o.failures.isEmpty then .ok o.text else .error (.declarations o.failures)

end Output

/-! ## Generation -/

namespace Compilation

/-- What the declarations of a compiled document are built from. -/
def emissionContext (c : Compilation) (o : Options) : EmissionContext where
  schema := c.schema
  fragments := c.fragments
  options := o

/-- The session before the first declaration: all names are taken, and the lines every file starts
with are its first part. -/
def openSession (c : Compilation) (o : Options) : Session :=
  let s := Session.start o
  { s with
    names := s.names.insertAll (c.expected.map Expected.name)
    printer := (o.targetSyntax.header.foldl Printer.onNewline s.printer).finishPart }

end Compilation

namespace Session

/-- Queues a declaration and those inside it, each as a part of its own. -/
def enqueue (s : Session) (d : Declaration) : Session :=
  { s with
    printer := d.flatten.foldl
      (fun p e => p.enqueue (.code (e.shallow.print p.target))) s.printer }

end Session

/-- Generates declarations one after the other.  An error that is not fatal is reported under the
name of the declaration. -/
def generateAll (x : EmissionContext) (levels : SelectionSet → Nat) :
    List Expected → Session → Output → Except GenerationError (Session × Output)
  | [], s, out => .ok (s, out)
  | e :: es, s, out =>
    match (e.declaration x levels).run s with
    | (.ok d, s) =>
      generateAll x levels es (s.enqueue d) { out with declarations := out.declarations ++ [d] }
    | (.error err, s) =>
      let err := GenerationError.inDeclaration e.name err
      if err.isFatal then .error err
      else
        generateAll x levels es s
          { out with diagnostics := out.diagnostics ++ [.declarationFailed err] }

namespace Compilation

/-- Generates the declarations of a compiled document, within so many levels below each selection
set.  The custom scalars that were referred to by name are reported at the end. -/
def generateWithin (c : Compilation) (levels : SelectionSet → Nat) (o : Options) :
    Except GenerationError Output := do
  let (s, out) ← generateAll (c.emissionContext o) levels c.expected (c.openSession o) {}
  return { out with
    diagnostics := out.diagnostics ++ s.unmapped.map .unresolvedScalar
    text := s.printer.flush.1 }

/-- Generates the declarations of a compiled document. -/
def generate (c : Compilation) (o : Options) : Except GenerationError Output :=
  c.generateWithin (c.emissionContext o).levelsFor o

end Compilation

/-- Validates a schema, compiles a document against it and generates its declarations. -/
def generate (schema : Schema) (document : Document) (o : Options) :
    Except GenerationError Output := do
  SchemaError.lift schema.validate
  let c ← compile schema document o
  c.generate o

/-- The file of a document whose declarations can all be generated. -/
def generateSource (schema : Schema) (document : Document) (o : Options) :
    Except GenerationError String := do
  let out ← generate schema document o
  out.source

/-- The file of a document, from the interchange forms of the schema and the document. -/
def generateFromJson (schema document : String) (o : Options) :
    Except GenerationError String := do
  let s ← ParseError.lift (Schema.parse schema)
  let d ← ParseError.lift (Document.parse document)
  generateSource s d o

end ResponseTypes
