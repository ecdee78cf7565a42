import ResponseTypes.Printer.Basic
import ResponseTypes.Schema.Basic
import ResponseTypes.Selection.Collection
import ResponseTypes.TypeExpr.Naming

/-!
# The session of emission

Declarations are built in a session, which lasts from one to the next: the names that are taken, the
custom scalars referred to by name, and the printer with its naming scope.  A declaration that fails
does not undo what happened to the session.

## What is here

* `EmissionContext` — what declarations are built from.
* `Session`, and the monad `Emit` of steps that may fail.
* `Emit.inScope`, `claim`, `typeExpr` — the steps.
-/

set_option autoImplicit false

namespace ResponseTypes

/-- What declarations are built from. -/
structure EmissionContext where
  schema : Schema
  fragments : FragmentRegistry
  options : Options

namespace EmissionContext

/-- The collector of fields. -/
def collector (x : EmissionContext) : Collector where
  fragments := x.fragments
  merges := x.options.mergesFragments

end EmissionContext

/-! ## Sessions -/

/-- What lasts from one declaration to the next. -/
structure Session where
  names : NameRegistry := {}
  /-- The custom scalars referred to by name, in the order of their first use. -/
  unmapped : List String := []
  printer : Printer
deriving DecidableEq, Repr

namespace Session

/-- The session before anything was emitted. -/
def start (o : Options) : Session where
  printer := { target := o.targetSyntax }

/-- Notes a custom scalar. -/
def noteScalar (s : Session) (scalar? : Option String) : Session :=
  match scalar? with
  | none => s
  | some name =>
    if s.unmapped.contains name then s else { s with unmapped := s.unmapped ++ [name] }

/-- Enters a component of the naming scope. -/
def pushScope (s : Session) (component : String) : Session :=
  { s with printer := s.printer.pushScope component }

/-- Leaves the innermost component of the naming scope. -/
def popScope (s : Session) : Option String × Session :=
  let (component?, printer) := s.printer.popScope
  (component?, { s with printer })

end Session

/-! ## Steps -/

/-- A step of emission: it changes the session, and may fail. -/
abbrev Emit (α : Type) := ExceptT GenerationError (StateM Session) α

namespace Emit

/-- A step that only may fail. -/
def ofExcept {α : Type} : Except GenerationError α → Emit α
  | .ok a => pure a
  | .error e => throw e

/-- Runs a step inside a component of the naming scope, which is left whether the step fails or
not. -/
def inScope {α : Type} (component : String) (body : Emit α) : Emit α :=
  ExceptT.mk do
    modify fun s => s.pushScope component
    let result ← body.run
    modify fun s => s.popScope.2
    return result

/-- The naming scope. -/
def scope : Emit (List String) := do
  let s ← get
  return s.printer.scope

/-- Claims a component for a response key in the naming scope. -/
def claim (key : String) : Emit String := do
  let s ← get
  let (component, names) := s.names.claim s.printer.scope key
  set { s with names }
  return component

/-- An expression that was found for a type; a custom scalar in it is noted. -/
def noting (o : Options) (t : ResolvedType) (expr : Except GenerationError TypeExpr) :
    Emit TypeExpr := do
  let expr ← ofExcept expr
  modify fun s => s.noteScalar (o.unmappedScalar? t)
  return expr

/-- The expression of a type. -/
def typeExpr (o : Options) (naming : CompositeNaming) (t : ResolvedType) : Emit TypeExpr :=
  noting o t (o.typeExpr naming t)

/-- The expression of a type without a mark for null at its outermost level. -/
def innerTypeExpr (o : Options) (naming : CompositeNaming) (t : ResolvedType) : Emit TypeExpr :=
  noting o t (o.innerTypeExpr naming t)

end Emit
end ResponseTypes
