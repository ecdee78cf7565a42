import ResponseTypes.Proofs.Collection.Conflicts
import ResponseTypes.Proofs.Selection.Fields
import ResponseTypes.Proofs.Variant.Partition

/-!
# The selections that are reached

Below a selection set lie the selections made on the values of its fields, those of one key put
together, below these the next ones, and so on.  What lies below is found in two ways that agree: by
collecting for every object type there is, and by going through the variants.  For the variants
exist if something is collected for every object type, and then each of them has the fields of its
object types, up to order.

## What is here

* `SelectionSet.objects` — the object types for which fields are collected.
* `Collector.exists_variants_iff`, `Collector.exists_shape_of_mem_variants` and
  `Collector.exists_mem_variants_of_mem` — collected fields and variants.
* `Collector.Reaches` — what lies below a selection set, with `Collector.Reaches.all`;
  `Collector.Conflicts`.
-/

set_option autoImplicit false

namespace ResponseTypes

/-- The object types for which the fields of a selection set are collected: all its value can have,
or an unknown one if there are none. -/
def SelectionSet.objects (set : SelectionSet) : List (Option String) :=
  if set.possible = [] then [none] else set.possible.map some

theorem MergedField.shape_eq_iff {m n : MergedField} :
    m.shape = n.shape ↔ m.key = n.key ∧ m.type = n.type ∧ m.set? = n.set? := by
  simp [shape]

namespace Collector

variable {x : Collector} {set : SelectionSet}

/-! ## Variants and object types -/

/-- On a value whose object type is the declared one, or of which none is known, there is one object
type to collect for. -/
theorem exists_variants_eq_map (hplain : set.possible = [] ∨ set.isPolymorphic = false) :
    ∃ object?, set.objects = [object?] ∧ x.variants set
      = (x.collect set object?).map fun c => [.ofCollected set.possible c] := by
  by_cases hempty : set.possible = []
  · refine ⟨none, if_pos hempty, ?_⟩
    rw [variants, if_pos (by simp [hempty])]
    cases x.collect set none <;> rfl
  · have hpolymorphic : ¬ set.isPolymorphic = true := by simpa using hplain.resolve_left hempty
    have hpossible : set.possible = [set.parentType] := by
      simpa [SelectionSet.isPolymorphic] using hpolymorphic
    refine ⟨some set.parentType, ?_, ?_⟩
    · rw [SelectionSet.objects, if_neg hempty, hpossible]
      rfl
    · rw [variants, if_neg (by simpa using hempty), if_neg hpolymorphic]
      cases x.collect set (some set.parentType) <;> rfl

theorem objects_eq_map (hpossible : set.possible ≠ []) :
    set.objects = set.possible.map some := by
  rw [SelectionSet.objects, if_neg hpossible]

theorem exists_collect_eq_error_of_placeAll {objects : List String} {vs : List Variant}
    {err : GenerationError} (h : x.placeAll set objects vs = .error err) :
    ∃ object ∈ objects, x.collect set (some object) = .error err := by
  induction objects generalizing vs with
  | nil => cases h
  | cons object objects ih =>
    rw [placeAll] at h
    cases hc : x.collect set (some object) with
    | error err' =>
      rw [hc] at h
      cases h
      exact ⟨object, List.mem_cons_self, hc⟩
    | ok c =>
      rw [hc] at h
      obtain ⟨other, hother, herr⟩ := ih h
      exact ⟨other, List.mem_cons_of_mem _ hother, herr⟩

/-- **Where there are no variants**, collecting fails for some object type, with the same error. -/
theorem exists_collect_eq_error {err : GenerationError} (h : x.variants set = .error err) :
    ∃ object? ∈ set.objects, x.collect set object? = .error err := by
  by_cases hplain : set.possible = [] ∨ set.isPolymorphic = false
  · obtain ⟨object?, hobjects, heq⟩ := exists_variants_eq_map (x := x) hplain
    rw [heq] at h
    cases hc : x.collect set object? with
    | ok c =>
      rw [hc] at h
      cases h
    | error err' =>
      rw [hc] at h
      cases h
      exact ⟨object?, by rw [hobjects]; exact List.mem_cons_self, hc⟩
  · obtain ⟨hpossible, hpolymorphic⟩ := not_or.1 hplain
    rw [variants, if_neg (by simpa using hpossible), if_pos (by simpa using hpolymorphic)] at h
    cases hplace : x.placeAll set set.possible [] with
    | ok vs =>
      rw [hplace] at h
      cases h
    | error err' =>
      rw [hplace] at h
      cases h
      obtain ⟨object, hobject, herr⟩ := exists_collect_eq_error_of_placeAll hplace
      refine ⟨some object, ?_, herr⟩
      rw [objects_eq_map hpossible]
      exact List.mem_map_of_mem hobject

/-- **When there are variants**: something is collected for every object type. -/
theorem exists_variants_iff (x : Collector) (set : SelectionSet) :
    (∃ vs, x.variants set = .ok vs) ↔
      ∀ object? ∈ set.objects, ∃ c, x.collect set object? = .ok c := by
  by_cases hplain : set.possible = [] ∨ set.isPolymorphic = false
  · obtain ⟨object?, hobjects, heq⟩ := exists_variants_eq_map (x := x) hplain
    rw [heq, hobjects, List.forall_mem_singleton]
    constructor
    · rintro ⟨vs, hvs⟩
      obtain ⟨c, hc, -⟩ := map_eq_ok_iff.1 hvs
      exact ⟨c, hc⟩
    · rintro ⟨c, hc⟩
      exact ⟨_, map_eq_ok_iff.2 ⟨c, hc, rfl⟩⟩
  · obtain ⟨hpossible, hpolymorphic⟩ := not_or.1 hplain
    rw [x.exists_variants_eq_ok_iff set (by simpa using hpolymorphic) hpossible,
      objects_eq_map hpossible]
    simp

@[simp] theorem shape_narrowed (m : MergedField) (names : List String) :
    (if m.isTypename = true then { m with literals? := some names } else m).shape = m.shape := by
  split <;> rfl

@[simp] theorem key_narrowed (m : MergedField) (names : List String) :
    (if m.isTypename = true then { m with literals? := some names } else m).key = m.key :=
  congrArg Prod.fst (shape_narrowed m names)

/-- **A field of a variant** is collected for one of the object types. -/
theorem exists_shape_of_mem_variants {vs : List Variant} (h : x.variants set = .ok vs)
    {v : Variant} (hv : v ∈ vs) {m : MergedField} (hm : m ∈ v.fields) :
    ∃ object? ∈ set.objects, ∃ c, x.collect set object? = .ok c ∧
      ∃ n ∈ c.fields, n.shape = m.shape := by
  by_cases hplain : set.possible = [] ∨ set.isPolymorphic = false
  · obtain ⟨object?, hobjects, heq⟩ := exists_variants_eq_map (x := x) hplain
    rw [heq] at h
    obtain ⟨c, hc, rfl⟩ := map_eq_ok_iff.1 h
    obtain rfl := List.mem_singleton.1 hv
    exact ⟨object?, by rw [hobjects]; exact List.mem_cons_self, c, hc, m, hm, rfl⟩
  · obtain ⟨hpossible, hpolymorphic⟩ := not_or.1 hplain
    have hpolymorphic : set.isPolymorphic = true := by simpa using hpolymorphic
    obtain ⟨possible, object, hobject, c, hc, rfl⟩ :=
      exists_narrowed_of_mem_variants hpolymorphic hpossible h hv
    obtain ⟨n, hn, rfl⟩ := Variant.mem_narrowed_fields.1 hm
    refine ⟨some object, ?_, c, hc, n, hn, (shape_narrowed _ _).symm⟩
    rw [objects_eq_map hpossible]
    exact List.mem_map_of_mem hobject

/-- A selection set lies below another one, or is that set: it is put together from the selections
that were made on the value of a collected field. -/
inductive Reaches (x : Collector) (set : SelectionSet) : SelectionSet → Prop where
  | refl : Reaches x set set
  | field {above below : SelectionSet} {object? : Option String} {c : Collected}
    {m : MergedField} (h : Reaches x set above) (hobject : object? ∈ above.objects)
    (hc : x.collect above object? = .ok c) (hm : m ∈ c.fields) (hset : m.set? = some below) :
    Reaches x set below

theorem Reaches.trans {top above below : SelectionSet} (h : x.Reaches top above)
    (h' : x.Reaches above below) : x.Reaches top below := by
  induction h' with
  | refl => exact h
  | field _ hobject hc hm hset ih => exact .field ih hobject hc hm hset

/-- The selections on the value of a field of a variant lie below. -/
theorem reaches_of_mem_variants {vs : List Variant} (h : x.variants set = .ok vs) {v : Variant}
    (hv : v ∈ vs) {m : MergedField} (hm : m ∈ v.fields) {below : SelectionSet}
    (hset : m.set? = some below) : x.Reaches set below := by
  obtain ⟨object?, hobject, c, hc, n, hn, hshape⟩ := exists_shape_of_mem_variants h hv hm
  exact .field .refl hobject hc hn ((MergedField.shape_eq_iff.1 hshape).2.2.trans hset)

/-- What lies below a selection set has a property that all fields have. -/
theorem Reaches.all {below : SelectionSet} {P : Field → Option SelectionSet → Prop}
    (h : x.Reaches set below) (hset : set.All P) (hfragments : ∀ g ∈ x.fragments, g.set.All P) :
    below.All P := by
  induction h with
  | refl => exact hset
  | field _ _ hc hm hmset ih =>
    obtain ⟨first, rest, rfl, hyields⟩ := exists_parts_of_mem hc hm hmset
    rw [SelectionSet.all_iff]
    intro s hs
    obtain ⟨part, hpart, hs⟩ := List.mem_flatMap.1 hs
    obtain ⟨f, hf⟩ := hyields part hpart
    obtain ⟨-, hall⟩ := hf.all (SelectionSet.all_iff.1 ih) hfragments
    exact SelectionSet.all_iff.1 (hall part rfl) s hs

/-- In a selection set or below it, for one of the object types there are, two fields have one
response key and different types. -/
def Conflicts (x : Collector) (set : SelectionSet) (key : String) (first second : ResolvedType) :
    Prop :=
  ∃ below, x.Reaches set below ∧ ∃ object? ∈ below.objects,
    x.ConflictsAt below object? key first second

theorem Conflicts.of_reaches {above : SelectionSet} {key : String} {first second : ResolvedType}
    (h : x.Reaches set above) (hconflicts : x.Conflicts above key first second) :
    x.Conflicts set key first second := by
  obtain ⟨below, hbelow, hconflicts⟩ := hconflicts
  exact ⟨below, h.trans hbelow, hconflicts⟩

end Collector
end ResponseTypes
