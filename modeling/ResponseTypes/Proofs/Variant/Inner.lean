import ResponseTypes.Proofs.Collection.Distinct
import ResponseTypes.Proofs.Variant.Reaching

/-!
# The selection sets below, in order

The selection sets that are made on the values of fields come up in an order: object type by object
type, and field by field.  Going through the variants leaves out the object types that are not the
first of their shape; but these bring no set that has not come up before.

## What is here

* `Collector.inner` — the selection sets in order; `Collector.collectsAll` — whether there are any.
* `Collector.eraseDups_inner` — the order is that of the variants.
* `Collector.map_distinct_inner` — repeats change nothing about it.
-/

set_option autoImplicit false

namespace ResponseTypes
namespace Collector

/-- The selection sets on the values of the fields that are collected for an object type. -/
def innerFor (x : Collector) (set : SelectionSet) (object? : Option String) : List SelectionSet :=
  match x.collect set object? with
  | .ok c => c.fields.filterMap MergedField.set?
  | .error _ => []

/-- The selection sets on the values of fields, object type by object type. -/
def inner (x : Collector) (set : SelectionSet) : List SelectionSet :=
  set.objects.flatMap (x.innerFor set)

/-- Whether something is collected for every object type. -/
def collectsAll (x : Collector) (set : SelectionSet) : Bool :=
  set.objects.all fun object? => (x.collect set object?).isOk

variable {x : Collector} {set : SelectionSet}

theorem innerFor_eq {object? : Option String} {c : Collected}
    (h : x.collect set object? = .ok c) :
    x.innerFor set object? = c.fields.filterMap MergedField.set? := by
  rw [innerFor, h]

/-- The sets on the values of collected fields lie below. -/
theorem reaches_of_mem_inner {below : SelectionSet} (h : below ∈ x.inner set) :
    ∃ object? ∈ set.objects, ∃ c, x.collect set object? = .ok c ∧
      ∃ m ∈ c.fields, m.set? = some below := by
  obtain ⟨object?, hobject, hbelow⟩ := List.mem_flatMap.1 h
  cases hc : x.collect set object? with
  | error err =>
    rw [innerFor, hc] at hbelow
    cases hbelow
  | ok c =>
    rw [innerFor_eq hc] at hbelow
    obtain ⟨m, hm, hset⟩ := List.mem_filterMap.1 hbelow
    exact ⟨object?, hobject, c, hc, m, hm, hset⟩

theorem collectsAll_iff : x.collectsAll set = true ↔ ∃ vs, x.variants set = .ok vs := by
  rw [exists_variants_iff, collectsAll, List.all_eq_true]
  refine forall₂_congr fun object? _ => ?_
  cases x.collect set object? <;> simp [Except.isOk, Except.toBool]

/-! ## Going through the variants -/

theorem filterMap_narrowed_set? (v : Variant) :
    v.narrowed.fields.filterMap MergedField.set? = v.fields.filterMap MergedField.set? := by
  rw [Variant.narrowed, List.filterMap_map]
  refine List.filterMap_congr fun m _ => ?_
  rw [Function.comp_apply]
  split <;> rfl

/-- **Going through the variants** one meets the selection sets in the same order. -/
theorem eraseDups_inner {vs : List Variant} (h : x.variants set = .ok vs) :
    ((vs.flatMap Variant.fields).filterMap MergedField.set?).eraseDups
      = (x.inner set).eraseDups := by
  by_cases hplain : set.possible = [] ∨ set.isPolymorphic = false
  · obtain ⟨object?, hobjects, heq⟩ := exists_variants_eq_map (x := x) hplain
    rw [heq] at h
    obtain ⟨c, hc, rfl⟩ := map_eq_ok_iff.1 h
    rw [inner, hobjects, List.flatMap_singleton, List.flatMap_singleton, innerFor_eq hc]
    rfl
  · obtain ⟨hpossible, hpolymorphic⟩ := not_or.1 hplain
    have hpolymorphic : set.isPolymorphic = true := by simpa using hpolymorphic
    have hall := (x.exists_variants_eq_ok_iff set hpolymorphic hpossible).1 ⟨vs, h⟩
    have hinner : x.inner set = set.possible.flatMap fun object =>
        (x.yield set object).fields.filterMap MergedField.set? := by
      rw [inner, objects_eq_map hpossible, List.flatMap_map]
      refine List.flatMap_congr fun object hobject => ?_
      obtain ⟨c, hc⟩ := hall object hobject
      rw [innerFor_eq hc, yield_eq hc]
    have hvariants : (vs.flatMap Variant.fields).filterMap MergedField.set?
        = (firsts (x.alike set) set.possible).flatMap fun object =>
            (x.yield set object).fields.filterMap MergedField.set? := by
      rw [variants_eq_classes hpolymorphic hpossible h, classes, List.map_map, List.flatMap_map,
        List.filterMap_flatMap]
      exact List.flatMap_congr fun object _ => filterMap_narrowed_set? _
    rw [hinner, hvariants]
    refine eraseDups_flatMap_firsts fun object _ other _ halike => ?_
    have hperm := ((Collected.sameShape_eq_true _ _).1 halike).1
    intro below hbelow
    obtain ⟨m, hm, hset⟩ := List.mem_filterMap.1 hbelow
    obtain ⟨n, hn, hshape⟩ := List.mem_map.1 (hperm.mem_iff.2 (List.mem_map_of_mem hm))
    exact List.mem_filterMap.2 ⟨n, hn, (MergedField.shape_eq_iff.1 hshape).2.2.trans hset⟩

/-! ## Repeats -/

/-- **Repeats change nothing** about the selection sets that come up, up to the repeats in these. -/
theorem map_distinct_inner (x : Collector) (set : SelectionSet) :
    (x.inner set.distinct).map SelectionSet.distinct
      = (x.inner set).map SelectionSet.distinct := by
  have hsets : ∀ (above : SelectionSet) (object? : Option String),
      (x.innerFor above object?).map SelectionSet.distinct
        = match (x.collect above object?).map Collected.distinct with
          | .ok c => c.fields.filterMap MergedField.set?
          | .error _ => [] := by
    intro above object?
    rw [innerFor]
    cases x.collect above object? with
    | error err => rfl
    | ok c =>
      simp only [Except.map, Collected.distinct]
      rw [List.filterMap_map, List.map_filterMap]
      rfl
  have hobjects : set.distinct.objects = set.objects := rfl
  rw [inner, inner, hobjects, List.map_flatMap, List.map_flatMap]
  refine List.flatMap_congr fun object? _ => ?_
  rw [hsets, hsets, collect_distinct]

theorem collectsAll_distinct (x : Collector) (set : SelectionSet) :
    x.collectsAll set.distinct = x.collectsAll set := by
  have hisOk : ∀ r : Except GenerationError Collected,
      (r.map Collected.distinct).isOk = r.isOk := by
    intro r
    cases r <;> rfl
  have hobjects : set.distinct.objects = set.objects := rfl
  rw [collectsAll, collectsAll, hobjects]
  refine List.all_congr rfl fun object? => ?_
  rw [← hisOk, collect_distinct, hisOk]

end Collector
end ResponseTypes
