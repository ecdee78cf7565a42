import ResponseTypes.Counting
import ResponseTypes.Document.Basic
import ResponseTypes.Options
import ResponseTypes.Schema.Basic
import ResponseTypes.Selection.Basic

/-!
# Compiling documents

A document is compiled against a schema: every field is looked up and typed, every selection set and
every fragment is given the object types it applies to.  On the way the enums and input objects that
the document uses are gathered, in the order of their first use; an input object brings in the types
of its fields.

The first name that cannot be found, or type that cannot be resolved, stops the compilation.

## What is here

* `UsedTypes.note`, `Schema.follow` — gathering the types used.
* `CompilationInput.compileSelection`, `compileSelections` — selections.
* `Compilation` and `compile` — whole documents.
-/

set_option autoImplicit false

namespace ResponseTypes

/-! ## The types used -/

/-- The names of the enums and input objects met so far, in the order of their first use. -/
abbrev UsedTypes := List String

namespace UsedTypes

/-- The names with one more, unless it is among them. -/
def insert (u : UsedTypes) (name : String) : UsedTypes :=
  if u.contains name then u else u ++ [name]

end UsedTypes

namespace Schema

/-- Notes the enum or input object at the heart of a type, and gives the types of the fields of an
input object that is met for the first time. -/
def note (s : Schema) (t : ResolvedType) (u : UsedTypes) : UsedTypes × List TypeRef :=
  match t.innermost with
  | (.enum, name) => (UsedTypes.insert u name, [])
  | (.inputObject, name) =>
    if u.contains name then (u, [])
    else
      match s.get? name with
      | some (.inputObject d) => (UsedTypes.insert u name, d.fields.map fun f => f.type)
      | _ => (UsedTypes.insert u name, [])
  | _ => (u, [])

/-- How many definitions have not been met yet. -/
def unmet (s : Schema) (u : UsedTypes) : Nat :=
  s.types.countP fun d => !u.contains d.name

theorem contains_insert {u : UsedTypes} {name other : String} :
    (UsedTypes.insert u name).contains other = (u.contains other || other == name) := by
  unfold UsedTypes.insert
  split
  · rename_i h
    by_cases ho : other = name
    · subst ho; rw [h]; simp
    · simp [ho]
  · simp only [List.contains_eq_mem, List.mem_append, List.mem_singleton, Bool.decide_or]
    rfl

theorem unmet_insert_le (s : Schema) (u : UsedTypes) (name : String) :
    s.unmet (UsedTypes.insert u name) ≤ s.unmet u := by
  apply List.countP_mono_left
  intro d _ h
  rw [contains_insert] at h
  cases hu : u.contains d.name
  · rfl
  · rw [hu] at h; exact h

theorem unmet_insert_lt (s : Schema) (u : UsedTypes) (d : TypeDefinition) (name : String)
    (hget : s.get? name = some d) (hu : u.contains name = false) :
    s.unmet (UsedTypes.insert u name) < s.unmet u := by
  have hname : d.name = name := name_of_get? hget
  refine countP_lt_countP ?_ (mem_types_of_get? hget) ?_ ?_
  · intro e h
    rw [contains_insert] at h
    cases hu : u.contains e.name
    · rfl
    · rw [hu] at h; exact h
  · rw [contains_insert, hname]
    simp
  · rw [hname, hu]; rfl

/-- Resolves types one after the other and notes what they use; the types of the fields of an input
object come before the types that are left.  Each input object is opened once, so this ends also for
input objects that hold each other. -/
def follow (s : Schema) : List TypeRef → UsedTypes → Except SchemaError UsedTypes
  | [], u => .ok u
  | ref :: rest, u =>
    match s.resolve ref with
    | .error e => .error e
    | .ok t => s.follow ((s.note t u).2 ++ rest) (s.note t u).1
termination_by refs u => (s.unmet u, refs.length)
decreasing_by
  simp only [note]
  split
  · exact Prod.Lex.right' _ (unmet_insert_le s u _) (by simp)
  · split
    · exact Prod.Lex.right _ (by simp)
    · split
      · rename_i hu _ _ hget
        exact Prod.Lex.left _ _ (unmet_insert_lt s u _ _ hget (by simpa using hu))
      · exact Prod.Lex.right' _ (unmet_insert_le s u _) (by simp)
  · exact Prod.Lex.right _ (by simp)

/-- Notes everything a type uses. -/
def use (s : Schema) (t : ResolvedType) (u : UsedTypes) : Except SchemaError UsedTypes :=
  s.follow (s.note t u).2 (s.note t u).1

end Schema

/-! ## Selections -/

/-- What a document is compiled from. -/
structure CompilationInput where
  schema : Schema
  document : Document
  options : Options

/-- Whether a field among the selections has the response key of the type name. -/
def SelectionNode.asksTypename (nodes : List SelectionNode) : Bool :=
  nodes.any fun
    | .field name alias? _ => alias?.getD name == typenameField
    | _ => false

namespace CompilationInput

/-- Looks up and types a field, and notes the types it uses. -/
def compileField (x : CompilationInput) (parent name : String) (alias? : Option String)
    (u : UsedTypes) : Except GenerationError (Field × UsedTypes) :=
  if name = typenameField then .ok ({ Field.typename with alias? }, u)
  else
    match x.schema.field? parent name with
    | none => .error (.schema (.fieldNotFound parent name))
    | some d => do
      let type ← SchemaError.lift (x.schema.resolve d.type)
      let u ← SchemaError.lift (x.schema.use type u)
      return ({ name, alias?, type, description? := d.description? }, u)

/-- The selection set on a type that holds compiled selections.  If the options ask for it, the type
name comes first, unless the selections ask for it themselves. -/
def setOf (x : CompilationInput) (parent : String) (nodes : List SelectionNode)
    (selections : List Selection) : SelectionSet where
  parentType := parent
  possible := x.schema.possibleTypes parent
  selections :=
    if x.options.addsTypename && !SelectionNode.asksTypename nodes then
      .leaf Field.typename :: selections
    else selections

mutual

/-- Compiles a selection on a type. -/
def compileSelection (x : CompilationInput) (parent : String) :
    SelectionNode → UsedTypes → Except GenerationError (Selection × UsedTypes)
  | .field name alias? nodes, u => do
    let (field, u) ← x.compileField parent name alias? u
    if field.type.isComposite then
      let inner := field.type.innermostName
      let (selections, u) ← x.compileSelections inner nodes u
      return (.branch field (x.setOf inner nodes selections), u)
    else return (.leaf field, u)
  | .spread name, u =>
    match x.document.fragment? name with
    | none => .error (.schema (.fragmentNotFound name))
    | some f => .ok (.spread name f.typeCondition (x.schema.possibleTypes f.typeCondition), u)
  | .inline typeCondition? nodes, u =>
    let condition := typeCondition?.getD parent
    if x.schema.hasType condition then do
      let (selections, u) ← x.compileSelections condition nodes u
      return (.inline condition (x.schema.possibleTypes condition)
        (x.setOf condition nodes selections), u)
    else .error (.schema (.typeNotFound condition))

/-- Compiles selections on a type, one after the other. -/
def compileSelections (x : CompilationInput) (parent : String) :
    List SelectionNode → UsedTypes → Except GenerationError (List Selection × UsedTypes)
  | [], u => .ok ([], u)
  | node :: nodes, u => do
    let (selection, u) ← x.compileSelection parent node u
    let (selections, u) ← x.compileSelections parent nodes u
    return (selection :: selections, u)

end

/-- Compiles a selection set on a type. -/
def compileSet (x : CompilationInput) (parent : String) (nodes : List SelectionNode)
    (u : UsedTypes) : Except GenerationError (SelectionSet × UsedTypes) := do
  let (selections, u) ← x.compileSelections parent nodes u
  return (x.setOf parent nodes selections, u)

/-! ## Fragments and operations -/

/-- Compiles a fragment. -/
def compileFragment (x : CompilationInput) (f : FragmentNode) (u : UsedTypes) :
    Except GenerationError (Fragment × UsedTypes) :=
  if x.schema.hasType f.typeCondition then do
    let (set, u) ← x.compileSet f.typeCondition f.selections u
    return ({ name := f.name, typeCondition := f.typeCondition, set }, u)
  else .error (.schema (.typeNotFound f.typeCondition))

/-- Compiles fragments in order and registers them. -/
def compileFragments (x : CompilationInput) :
    List FragmentNode → FragmentRegistry → UsedTypes →
      Except GenerationError (FragmentRegistry × UsedTypes)
  | [], r, u => .ok (r, u)
  | f :: fs, r, u => do
    let (fragment, u) ← x.compileFragment f u
    x.compileFragments fs (FragmentRegistry.insert fragment r) u

/-- Resolves the variables of an operation. -/
def compileVariables (x : CompilationInput) :
    List VariableNode → UsedTypes → Except GenerationError (List Variable × UsedTypes)
  | [], u => .ok ([], u)
  | v :: vs, u => do
    let type ← SchemaError.lift (x.schema.resolve v.type)
    let u ← SchemaError.lift (x.schema.use type u)
    let (vars, u) ← x.compileVariables vs u
    return ({ name := v.name, type } :: vars, u)

/-- Compiles an operation. -/
def compileOperation (x : CompilationInput) (o : OperationNode) (u : UsedTypes) :
    Except GenerationError (Operation × UsedTypes) :=
  match o.kind? with
  | none => .error (.unsupportedOperationKind o.name o.operationType)
  | some kind =>
    match x.schema.rootType? kind with
    | none => .error (.schema (.missingRootType kind.keyword))
    | some rootType => do
      let (vars, u) ← x.compileVariables o.vars u
      let (set, u) ← x.compileSet rootType o.selections u
      return ({ name := o.name, kind, rootType, vars, set }, u)

/-- Compiles operations in order. -/
def compileOperations (x : CompilationInput) :
    List OperationNode → UsedTypes → Except GenerationError (List Operation × UsedTypes)
  | [], u => .ok ([], u)
  | o :: os, u => do
    let (operation, u) ← x.compileOperation o u
    let (operations, u) ← x.compileOperations os u
    return (operation :: operations, u)

end CompilationInput

/-! ## Documents -/

/-- A compiled document, with the schema it was compiled against. -/
structure Compilation where
  schema : Schema
  operations : List Operation
  fragments : FragmentRegistry
  typesUsed : UsedTypes

namespace Compilation

/-- The operation of a name; the first one counts. -/
def operation? (c : Compilation) (name : String) : Option Operation :=
  c.operations.find? fun o => o.name == name

end Compilation

/-- Compiles a document against a schema: the fragments first, then the operations. -/
def compile (schema : Schema) (document : Document) (options : Options) :
    Except GenerationError Compilation := do
  let x : CompilationInput := { schema, document, options }
  let (fragments, u) ← x.compileFragments document.fragments [] []
  let (operations, typesUsed) ← x.compileOperations document.operations u
  return { schema, operations, fragments, typesUsed }

end ResponseTypes
