import ResponseTypes.Counting
import ResponseTypes.Declaration.Basic
import ResponseTypes.Emission.Session
import ResponseTypes.Selection.Variant

/-!
# Declarations of selection sets

A selection set is declared as an object type, or as a union with an object type for each variant.
The selections made on the value of a field are declared in turn, under a name claimed in the scope
of the declaration around them; variants that make the same selections under the same key share the
declaration.

Every step inwards goes through a field of the selection set or of a fragment that was opened on the
way.  A fragment may be opened again further in.  It may then yield the same fields again, and so on
without end; or the declaration may fail, because two fields conflict there.  So that the functions
end for every input, they count the levels.  The levels that are allowed for suffice for every
declaration that ends without a count, whether it is built or fails.

## What is here

* `NestedTable` — the declarations built so far for one declaration.
* `EmissionContext.property`, `shape`, `shapes` — one level of a declaration.
* `EmissionContext.declarationWithin`, `selectionDeclaration` — the declaration of a selection set.
-/

set_option autoImplicit false

namespace ResponseTypes

/-! ## Shared declarations -/

/-- A declaration built for a response key and the selections made on its value. -/
structure NestedEntry where
  key : String
  set : SelectionSet
  declaration : Declaration

/-- The declarations built inside one declaration, in the order in which they were built. -/
abbrev NestedTable := List NestedEntry

namespace NestedTable

/-- The name of the declaration of a response key and the selections made on its value. -/
def name? (table : NestedTable) (key : String) (set : SelectionSet) : Option String :=
  (table.find? fun e => e.key == key && e.set == set).map fun e => e.declaration.name

/-- The declarations of a table. -/
def declarations (table : NestedTable) : List Declaration :=
  table.map fun e => e.declaration

end NestedTable

namespace EmissionContext

/-! ## One level -/

/-- The type of a property, given how nested selections are declared, and the table with the
declarations built for it. -/
def propertyType (x : EmissionContext) (declare : String → SelectionSet → Emit Declaration)
    (table : NestedTable) (m : MergedField) : Emit (TypeExpr × NestedTable) :=
  match m.literals?, m.set?, m.type.isComposite with
  | some literals, _, _ => return (.literals literals, table)
  | none, some set, true =>
    match table.name? m.key set with
    | some name => do
      let type ← Emit.typeExpr x.options (.claimed name) m.type
      return (type, table)
    | none => do
      let component ← Emit.claim m.key
      let scope ← Emit.scope
      let name := joinName scope component
      let declaration ← Emit.inScope component (declare name set)
      let type ← Emit.typeExpr x.options (.claimed name) m.type
      return (type, table ++ [{ key := m.key, set, declaration }])
  | none, _, _ => do
    let scope ← Emit.scope
    let type ← Emit.typeExpr x.options (.byKey scope m.key) m.type
    return (type, table)

/-- The properties of fields. -/
def properties (x : EmissionContext) (declare : String → SelectionSet → Emit Declaration) :
    NestedTable → List MergedField → Emit (List Property × NestedTable)
  | table, [] => return ([], table)
  | table, m :: ms => do
    let (type, table) ← x.propertyType declare table m
    let (ps, table) ← x.properties declare table ms
    return ({ name := m.key, isOptional := false, type, description? := m.description? } :: ps,
      table)

/-- The shapes of variants. -/
def shapes (x : EmissionContext) (declare : String → SelectionSet → Emit Declaration) :
    NestedTable → List Variant → Emit (List Shape × NestedTable)
  | table, [] => return ([], table)
  | table, v :: vs => do
    let (properties, table) ← x.properties declare table v.fields
    let (shapes, table) ← x.shapes declare table vs
    return ({ spreads := v.spreads, properties } :: shapes, table)

/-! ## All levels -/

/-- The declaration of a selection set whose fields nest at most a number of times. -/
def declarationWithin (x : EmissionContext) :
    Nat → String → Option String → SelectionSet → Emit Declaration
  | 0, name, _, _ => throw (.endlessNesting name)
  | levels + 1, name, description?, set => do
    let variants ← Emit.ofExcept (x.collector.variants set)
    let (shapes, table) ←
      x.shapes (fun name set => x.declarationWithin levels name none set) [] variants
    return .build name description? (.ofShapes shapes) table.declarations

/-- The selections in all fragments, at every depth. -/
def fragmentSelections (x : EmissionContext) : List Selection :=
  x.fragments.flatMap fun f => f.set.subterms

/-- How many selections there are in all fragments together. -/
def fragmentSize (x : EmissionContext) : Nat :=
  x.fragmentSelections.length

/-- How many fields can nest in a declaration that ends.  After as many as nest in the set, the way
down has left what is written there.  Every set from then on is made of selections of the fragments:
it has the type and the object types of one that is inside them, and apart from repeats its
selections are a list of theirs.  None of these sets comes up twice on the way. -/
def nestingBound (x : EmissionContext) (set : SelectionSet) : Nat :=
  set.depth + x.fragmentSize * numLists x.fragmentSize x.fragmentSize

/-- The number of levels that is allowed for below a selection set. -/
def levelsFor (x : EmissionContext) (set : SelectionSet) : Nat :=
  x.nestingBound set + 1

/-- The declaration of a selection set.  The component of its name is in scope already. -/
def selectionDeclaration (x : EmissionContext) (name : String) (description? : Option String)
    (set : SelectionSet) : Emit Declaration :=
  x.declarationWithin (x.levelsFor set) name description? set

/-- The declaration of a selection set under a name of its own, within a number of levels. -/
def topLevelWithin (x : EmissionContext) (levels : Nat) (name : String)
    (description? : Option String) (set : SelectionSet) : Emit Declaration :=
  Emit.inScope name (x.declarationWithin levels name description? set)

/-- The declaration of a selection set under a name of its own. -/
def topLevelDeclaration (x : EmissionContext) (name : String) (description? : Option String)
    (set : SelectionSet) : Emit Declaration :=
  Emit.inScope name (x.selectionDeclaration name description? set)

end EmissionContext
end ResponseTypes
