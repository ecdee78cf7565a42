import ResponseTypes.TypeKind
import ResponseTypes.TypeRef

/-!
# Documents

A document holds operations and fragments as they are written.  Nothing has been looked up in a
schema yet: types are references, and the kind of an operation is a word that may be none of the
known ones.

## What is here

* `SelectionNode` — one selection, with the selections inside it.
* `OperationNode`, `FragmentNode`, `Document`.
* `Document.fragment?` — the first fragment of a name.
-/

set_option autoImplicit false

namespace ResponseTypes

/-- A selection as it is written: a field, the use of a fragment by name, or a fragment written in
place, which may leave out the type it applies to. -/
inductive SelectionNode where
  | field (name : String) (alias? : Option String) (selections : List SelectionNode)
  | spread (fragment : String)
  | inline (typeCondition? : Option String) (selections : List SelectionNode)

deriving instance Repr for SelectionNode

/-- A variable of an operation. -/
structure VariableNode where
  name : String
  type : TypeRef
deriving DecidableEq, Repr

/-- An operation as it is written. -/
structure OperationNode where
  name : String
  operationType : String
  vars : List VariableNode := []
  selections : List SelectionNode := []
deriving Repr

/-- The kind of an operation, if the word for it is known. -/
def OperationNode.kind? (o : OperationNode) : Option OperationKind :=
  OperationKind.ofKeyword? o.operationType

/-- A fragment as it is written. -/
structure FragmentNode where
  name : String
  typeCondition : String
  selections : List SelectionNode := []
deriving Repr

/-- A document: operations and fragments in the order in which they are written. -/
structure Document where
  operations : List OperationNode := []
  fragments : List FragmentNode := []
deriving Repr

namespace Document

/-- The fragment of a name; the first one counts. -/
def fragment? (d : Document) (name : String) : Option FragmentNode :=
  d.fragments.find? fun f => f.name == name

/-- The document with one more operation. -/
def addOperation (d : Document) (o : OperationNode) : Document :=
  { d with operations := d.operations ++ [o] }

/-- The document with one more fragment. -/
def addFragment (d : Document) (f : FragmentNode) : Document :=
  { d with fragments := d.fragments ++ [f] }

end Document
end ResponseTypes
