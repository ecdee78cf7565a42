import ResponseTypes.Selection.Collection

/-!
# Variants of a selection set

On a value that can have several object types, a selection set may yield different fields for each.
The object types are sorted into *variants*: two types are in one variant when the same fields are
collected for both, up to order and descriptions.  Within a variant the name of the type is known to
be one of the variant's types.

## What is here

* `MergedField.shape` and `Variant.hasShape` — what two object types must have in common.
* `Variant`, `Variant.place` — sorting one object type in; `Variant.narrowed` — the type name.
* `Collector.variants` — the variants of a selection set.
-/

set_option autoImplicit false

namespace ResponseTypes

/-- What a field looks like to whoever reads a response: key, type and selections. -/
def MergedField.shape (m : MergedField) : String × ResolvedType × Option SelectionSet :=
  (m.key, m.type, m.set?)

/-- Object types of one shape, with the fields of the first of them. -/
structure Variant where
  possible : List String
  fields : List MergedField
  spreads : List String
deriving DecidableEq, Repr

namespace Variant

/-- Whether the collected fields and fragments are those of a variant, up to order. -/
def hasShape (v : Variant) (c : Collected) : Bool :=
  (v.fields.map MergedField.shape).isPerm (c.fields.map MergedField.shape) &&
    v.spreads.isPerm c.spreads

/-- The variant of what was collected for some object types. -/
def ofCollected (possible : List String) (c : Collected) : Variant where
  possible := possible
  fields := c.fields
  spreads := c.spreads

/-- Sorts an object type into the first variant of its shape, or into a new one. -/
def place (object : String) (c : Collected) : List Variant → List Variant
  | [] => [ofCollected [object] c]
  | v :: vs =>
    if v.hasShape c then { v with possible := v.possible ++ [object] } :: vs
    else v :: place object c vs

/-- The variant with the type name narrowed to its object types. -/
def narrowed (v : Variant) : Variant :=
  { v with
    fields := v.fields.map fun m =>
      if m.isTypename then { m with literals? := some v.possible } else m }

end Variant

namespace Collector

/-- Sorts object types into variants, one after the other. -/
def placeAll (x : Collector) (set : SelectionSet) :
    List String → List Variant → Except GenerationError (List Variant)
  | [], vs => .ok vs
  | object :: objects, vs => do
    let c ← x.collect set (some object)
    x.placeAll set objects (Variant.place object c vs)

/-- The variants of a selection set.  On a value whose object type is the declared one, or of which
no object type is known, there is a single variant, and the type name is not narrowed. -/
def variants (x : Collector) (set : SelectionSet) : Except GenerationError (List Variant) :=
  if set.possible.isEmpty then do
    let c ← x.collect set none
    return [Variant.ofCollected set.possible c]
  else if set.isPolymorphic then do
    let vs ← x.placeAll set set.possible []
    return vs.map Variant.narrowed
  else do
    let c ← x.collect set (some set.parentType)
    return [Variant.ofCollected set.possible c]

end Collector
end ResponseTypes
