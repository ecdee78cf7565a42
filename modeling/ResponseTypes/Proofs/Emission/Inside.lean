import ResponseTypes.Proofs.Declaration.Referring
import ResponseTypes.Proofs.Emission.Selections
import ResponseTypes.Proofs.Variant.Reaching

/-!
# Declarations inside declarations

A declaration that is nested in another one is built for the selections on the value of a field.  So
whatever is declared inside the declaration of a selection set explains a selection set that lies
below it.

## What is here

* `EmissionContext.forall_declaration_of_run_shapes` — what the table has in it after a level.
* `EmissionContext.exists_explains_of_run` — the declarations inside a declaration.
-/

set_option autoImplicit false

namespace ResponseTypes
namespace EmissionContext

variable {x : EmissionContext} {declare : String → SelectionSet → Emit Declaration}
  {T : Declaration → Prop} {table table' : NestedTable} {s t : Session}

/-! ## One level -/

theorem forall_declaration_of_run_propertyType {m : MergedField} {type : TypeExpr}
    (hdeclare : ∀ set, m.set? = some set → ∀ name s d t,
      (declare name set).run s = (.ok d, t) → T d)
    (htable : ∀ e ∈ table, T e.declaration)
    (h : (x.propertyType declare table m).run s = (.ok (type, table'), t)) :
    ∀ e ∈ table', T e.declaration := by
  rcases propertyType_cases h with ⟨-, -, -, rfl, -⟩ | ⟨-, -, -, -, -, -, -, rfl, -⟩ |
    ⟨set, d, r, -, hset, -, hrun, -, rfl, -⟩ | ⟨-, -, -, rfl, -⟩
  · exact htable
  · exact htable
  · exact List.forall_mem_append.2
      ⟨htable, List.forall_mem_singleton.2 (hdeclare set hset _ _ _ _ hrun)⟩
  · exact htable

theorem forall_declaration_of_run_properties {ms : List MergedField} {ps : List Property}
    (hdeclare : ∀ m ∈ ms, ∀ set, m.set? = some set → ∀ name s d t,
      (declare name set).run s = (.ok d, t) → T d)
    (htable : ∀ e ∈ table, T e.declaration)
    (h : (x.properties declare table ms).run s = (.ok (ps, table'), t)) :
    ∀ e ∈ table', T e.declaration := by
  induction ms generalizing table s ps with
  | nil =>
    cases h
    exact htable
  | cons m ms ih =>
    obtain ⟨hm, hms⟩ := List.forall_mem_cons.1 hdeclare
    rw [properties] at h
    obtain ⟨⟨type, table₁⟩, s₁, hfirst, h⟩ := Emit.run_bind_eq_ok_iff.1 h
    obtain ⟨⟨ps', table₂⟩, s₂, hrest, h⟩ := Emit.run_bind_eq_ok_iff.1 h
    cases h
    exact ih hms (forall_declaration_of_run_propertyType hm htable hfirst) hrest

/-- **What has been declared** at one level: all of it has a property that the declarations of the
selections on fields have. -/
theorem forall_declaration_of_run_shapes {vs : List Variant} {shapes : List Shape}
    (hdeclare : ∀ v ∈ vs, ∀ m ∈ v.fields, ∀ set, m.set? = some set → ∀ name s d t,
      (declare name set).run s = (.ok d, t) → T d)
    (htable : ∀ e ∈ table, T e.declaration)
    (h : (x.shapes declare table vs).run s = (.ok (shapes, table'), t)) :
    ∀ e ∈ table', T e.declaration := by
  induction vs generalizing table s shapes with
  | nil =>
    cases h
    exact htable
  | cons v vs ih =>
    obtain ⟨hv, hvs⟩ := List.forall_mem_cons.1 hdeclare
    rw [EmissionContext.shapes] at h
    obtain ⟨⟨ps, table₁⟩, s₁, hfirst, h⟩ := Emit.run_bind_eq_ok_iff.1 h
    obtain ⟨⟨shapes', table₂⟩, s₂, hrest, h⟩ := Emit.run_bind_eq_ok_iff.1 h
    cases h
    exact ih hvs (forall_declaration_of_run_properties hv htable hfirst) hrest

/-! ## All levels -/

/-- **What is declared inside** the declaration of a selection set explains a set below it. -/
theorem exists_explains_of_run (hfragments : ∀ f ∈ x.fragments, f.set.All Field.WellTyped)
    (levels : Nat) {name : String} {description? : Option String} {set : SelectionSet}
    (hset : set.All Field.WellTyped) {d : Declaration}
    (h : (x.declarationWithin levels name description? set).run s = (.ok d, t)) :
    ∀ e ∈ d.flatten, ∃ below, x.collector.Reaches set below ∧ x.Explains e below := by
  induction levels generalizing name description? set s t d with
  | zero => cases h
  | succ levels ih =>
    have hself := (declarationWithin_spec hfragments _ hset h).2.2
    rw [declarationWithin] at h
    obtain ⟨vs, r, hrun, h⟩ := Emit.run_bind_eq_ok_iff.1 h
    obtain ⟨⟨shapes, table⟩, r', hshapes, h⟩ := Emit.run_bind_eq_ok_iff.1 h
    cases h
    rw [Emit.run_ofExcept] at hrun
    obtain ⟨hvariants, rfl⟩ := Prod.mk.inj hrun
    -- What is declared for a field explains what lies below the selections on it.
    have htable := forall_declaration_of_run_shapes
      (T := fun d => ∀ e ∈ d.flatten, ∃ below, x.collector.Reaches set below ∧ x.Explains e below)
      ?_ (by simp) hshapes
    · intro e he
      rcases Declaration.mem_flatten_iff.1 he with rfl | ⟨d', hd', he⟩
      · exact ⟨set, .refl, hself⟩
      · obtain ⟨entry, hentry, rfl⟩ := List.mem_map.1 hd'
        exact htable entry hentry e he
    · intro v hv m hm inner hinner name s d t hd e he
      have hbelow := Collector.reaches_of_mem_variants hvariants hv hm hinner
      obtain ⟨below, hreaches, hexplains⟩ := ih (hbelow.all hset hfragments) hd e he
      exact ⟨below, hbelow.trans hreaches, hexplains⟩

end EmissionContext
end ResponseTypes
