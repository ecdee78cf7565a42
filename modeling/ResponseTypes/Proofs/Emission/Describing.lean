import Mathlib.Data.List.Forall2
import ResponseTypes.Emission.Selections
import ResponseTypes.Proofs.TypeExpr.Mirroring

/-!
# What a declaration of a selection set says

A declaration describes a selection set when its object types are the variants of the set, property
by property, and when a property whose value has selections of its own refers to a declaration
inside that describes these selections.

## What is here

* `Options.Renders` — a property says what a field is.
* `EmissionContext.Describes` — a declaration describes a selection set, in a given output.
-/

set_option autoImplicit false

namespace ResponseTypes

/-- A property says what a field is, where the declarations of nested selections are those of a
table: a narrowed field is one of the names, a field with selections refers to a declaration of the
same selections, and any other field refers to its named type; the last two with the wrappers of
their type. -/
structure Options.Renders (o : Options) (table : NestedTable) (m : MergedField) (p : Property) :
    Prop where
  name : p.name = m.key
  required : p.isOptional = false
  description : p.description? = m.description?
  narrowed : ∀ names, m.literals? = some names → p.type = .literals names
  nested : ∀ set, m.set? = some set → m.type.isComposite = true →
    ∃ e ∈ table, e.key = m.key ∧ e.set = set ∧
      p.type = .mirror (.named e.declaration.name) m.type
  plain : m.literals? = none → m.type.isComposite = false →
    p.type = .mirror (o.namedExpr .own m.type.innermostKind m.type.innermostName) m.type

/-- A shape has the fragments and the properties of a variant, in order. -/
def Options.RendersVariant (o : Options) (table : NestedTable) (v : Variant) (s : Shape) : Prop :=
  s.spreads = v.spreads ∧ List.Forall₂ (o.Renders table) v.fields s.properties

namespace EmissionContext

/-- A declaration describes a selection set: its shapes are the variants of the set, in order, and
the declarations inside, whose names are declared only once in the whole output, describe the
selections for which properties refer to them. -/
inductive Describes (x : EmissionContext) (out : List Declaration) :
    Declaration → SelectionSet → Prop where
  | intro {d : Declaration} {set : SelectionSet} {vs : List Variant} {shapes : List Shape}
    (table : NestedTable)
    (hvariants : x.collector.variants set = .ok vs)
    (hbody : d.body = .ofShapes shapes)
    (hnested : d.nested = table.declarations)
    (hshapes : List.Forall₂ (x.options.RendersVariant table) vs shapes)
    (hunique : ∀ e ∈ table, (declaredNames out).count e.declaration.name = 1)
    (hdescribes : ∀ e ∈ table, Describes x out e.declaration e.set) :
    Describes x out d set

end EmissionContext

theorem exists_mem_of_forall₂ {α β : Type} {R : α → β → Prop} {as : List α} {bs : List β}
    (h : List.Forall₂ R as bs) {a : α} (ha : a ∈ as) : ∃ b ∈ bs, R a b := by
  induction h with
  | nil => cases ha
  | cons hR _ ih =>
    rcases List.mem_cons.1 ha with rfl | ha
    · exact ⟨_, List.mem_cons_self, hR⟩
    · obtain ⟨b, hb, hR⟩ := ih ha
      exact ⟨b, List.mem_cons_of_mem _ hb, hR⟩

/-! ## Growing tables -/

theorem Options.Renders.mono {o : Options} {table table' : NestedTable} {m : MergedField}
    {p : Property} (h : o.Renders table m p) (htable : table ⊆ table') :
    o.Renders table' m p where
  name := h.name
  required := h.required
  description := h.description
  narrowed := h.narrowed
  nested := by
    intro set hset hcomposite
    obtain ⟨e, he, hentry⟩ := h.nested set hset hcomposite
    exact ⟨e, htable he, hentry⟩
  plain := h.plain

theorem Options.RendersVariant.mono {o : Options} {table table' : NestedTable} {v : Variant}
    {s : Shape} (h : o.RendersVariant table v s) (htable : table ⊆ table') :
    o.RendersVariant table' v s :=
  ⟨h.1, h.2.imp fun _ _ hp => hp.mono htable⟩

/-! ## Declared names -/

theorem Declaration.flattenAll_append (ds es : List Declaration) :
    Declaration.flattenAll (ds ++ es) = Declaration.flattenAll ds ++ Declaration.flattenAll es := by
  induction ds with
  | nil => rfl
  | cons d ds ih =>
    rw [List.cons_append, Declaration.flattenAll, Declaration.flattenAll, ih, List.append_assoc]

theorem declaredNames_append (ds es : List Declaration) :
    declaredNames (ds ++ es) = declaredNames ds ++ declaredNames es := by
  rw [declaredNames, Declaration.flattenAll_append, List.map_append]
  rfl

theorem declaredNames_cons (d : Declaration) (ds : List Declaration) :
    declaredNames (d :: ds) = d.name :: (declaredNames d.nested ++ declaredNames ds) := by
  cases d
  simp [declaredNames, Declaration.flattenAll, Declaration.flatten, Declaration.nested,
    Declaration.name]

theorem declaredNames_nested_subset {d : Declaration} {ds : List Declaration} (h : d ∈ ds) :
    declaredNames d.nested ⊆ declaredNames ds := by
  obtain ⟨l, r, rfl⟩ := List.append_of_mem h
  rw [declaredNames_append, declaredNames_cons]
  intro name hname
  simp [hname]

theorem name_mem_declaredNames {d : Declaration} {ds : List Declaration} (h : d ∈ ds) :
    d.name ∈ declaredNames ds := by
  obtain ⟨l, r, rfl⟩ := List.append_of_mem h
  rw [declaredNames_append, declaredNames_cons]
  simp

end ResponseTypes
