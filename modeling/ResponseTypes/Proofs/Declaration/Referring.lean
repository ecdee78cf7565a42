import ResponseTypes.Declaration.Basic
import ResponseTypes.Proofs.Emission.Describing

/-!
# What declarations refer to

An expression refers to the names in it; the declarations nested in a declaration are found by
flattening it.

## What is here

* `TypeExpr.names` — the names in an expression; wrappers add none.
* `Declaration.properties`, `Declaration.propertiesAll` — the properties of declarations.
* `Declaration.mem_flattenAll`, `Declaration.mem_flatten_iff` — declarations inside declarations.
-/

set_option autoImplicit false

namespace ResponseTypes

/-! ## Names in expressions -/

namespace TypeExpr

mutual

/-- The names in an expression. -/
def names : TypeExpr → List String
  | .named name => [name]
  | .literal _ => []
  | .nullable t => t.names
  | .array t => t.names
  | .union members => namesAll members

/-- The names in some expressions. -/
def namesAll : List TypeExpr → List String
  | [] => []
  | t :: ts => t.names ++ namesAll ts

end

theorem namesAll_map_literal (values : List String) : namesAll (values.map .literal) = [] := by
  induction values with
  | nil => rfl
  | cons v vs ih =>
    rw [List.map_cons, namesAll, ih]
    rfl

/-- There are no names among literals. -/
@[simp] theorem names_literals (values : List String) : (literals values).names = [] := by
  unfold literals
  split
  · rfl
  · exact namesAll_map_literal values

theorem names_mirrorInner (heart : TypeExpr) (t : ResolvedType) :
    (mirrorInner heart t).names = heart.names := by
  induction t with
  | named kind name => rfl
  | list t ih =>
    rw [mirrorInner, names]
    split
    · exact ih
    · exact ih
  | nonNull t ih => exact ih

/-- Wrappers add no names. -/
@[simp] theorem names_mirror (heart : TypeExpr) (t : ResolvedType) :
    (mirror heart t).names = heart.names := by
  rw [mirror]
  split
  · exact names_mirrorInner heart t
  · exact names_mirrorInner heart t

end TypeExpr

/-! ## Declarations -/

@[simp] theorem Body.shapes_ofShapes (shapes : List Shape) : (ofShapes shapes).shapes = shapes := by
  unfold ofShapes
  split <;> rfl

namespace Declaration

/-- The properties of a declaration. -/
def properties (d : Declaration) : List Property :=
  d.body.shapes.flatMap Shape.properties

/-- The properties of some declarations and of all those inside them. -/
def propertiesAll (ds : List Declaration) : List Property :=
  (flattenAll ds).flatMap properties

@[simp] theorem properties_build (name : String) (description? : Option String)
    (shapes : List Shape) (nested : List Declaration) :
    (build name description? (.ofShapes shapes) nested).properties
      = shapes.flatMap Shape.properties := by
  rw [properties, build, body, Body.shapes_ofShapes]

theorem mem_flattenAll {d : Declaration} {ds : List Declaration} :
    d ∈ flattenAll ds ↔ ∃ e ∈ ds, d ∈ e.flatten := by
  induction ds with
  | nil => simp [flattenAll]
  | cons e ds ih => simp [flattenAll, ih]

/-- Inside a declaration are the declaration itself and what is inside its nested ones. -/
theorem mem_flatten_iff {d e : Declaration} :
    e ∈ d.flatten ↔ e = d ∨ ∃ d' ∈ d.nested, e ∈ d'.flatten := by
  cases d with
  | mk name description? body nested =>
    rw [flatten, List.mem_cons, mem_flattenAll, Declaration.nested]

mutual

theorem flattenAll_nested_subset {d : Declaration} : (outer : Declaration) → d ∈ outer.flatten →
    flattenAll d.nested ⊆ flattenAll outer.nested
  | ⟨name, description?, body, nested⟩, h => by
    rw [flatten] at h
    rcases List.mem_cons.1 h with rfl | h
    · exact List.Subset.refl _
    · exact flattenAll_nested_subset_flattenAll nested h

/-- What is inside a declaration is inside whatever the declaration is inside. -/
theorem flattenAll_nested_subset_flattenAll {d : Declaration} : (ds : List Declaration) →
    d ∈ flattenAll ds → flattenAll d.nested ⊆ flattenAll ds
  | [], h => by cases h
  | outer :: ds, h => by
    rw [flattenAll] at h ⊢
    rcases List.mem_append.1 h with h | h
    · refine List.Subset.trans (flattenAll_nested_subset outer h) fun e he => ?_
      obtain ⟨f, hf, he⟩ := mem_flattenAll.1 he
      exact List.mem_append_left _ (mem_flatten_iff.2 (.inr ⟨f, hf, he⟩))
    · exact List.subset_append_of_subset_right _ (flattenAll_nested_subset_flattenAll ds h)

end

/-- What is nested in a declaration is inside whatever the declaration is inside. -/
theorem mem_flattenAll_of_mem_nested {d e : Declaration} (he : e ∈ d.nested)
    (ds : List Declaration) (h : d ∈ flattenAll ds) : e ∈ flattenAll ds :=
  flattenAll_nested_subset_flattenAll ds h
    (mem_flattenAll.2 ⟨e, he, mem_flatten_iff.2 (.inl rfl)⟩)

theorem flattenAll_cons (d : Declaration) (ds : List Declaration) :
    flattenAll (d :: ds) = d :: (flattenAll d.nested ++ flattenAll ds) := by
  cases d
  rw [flattenAll, flatten, nested, List.cons_append]

theorem propertiesAll_cons (d : Declaration) (ds : List Declaration) :
    propertiesAll (d :: ds) = d.properties ++ (propertiesAll d.nested ++ propertiesAll ds) := by
  rw [propertiesAll, flattenAll_cons, List.flatMap_cons, List.flatMap_append]
  rfl

theorem propertiesAll_append (ds es : List Declaration) :
    propertiesAll (ds ++ es) = propertiesAll ds ++ propertiesAll es := by
  rw [propertiesAll, flattenAll_append, List.flatMap_append]
  rfl

end Declaration

theorem NestedTable.declarations_cons (e : NestedEntry) (table : NestedTable) :
    NestedTable.declarations (e :: table) = e.declaration :: NestedTable.declarations table :=
  rfl

end ResponseTypes
