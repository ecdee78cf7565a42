import ResponseTypes.Proofs.Collection.Conflicts
import ResponseTypes.Proofs.Selection.Fields
import ResponseTypes.Proofs.Variant.Partition

/-!
# Selections that are covered

Selections are covered when their fields have a property and the fragments that they use are
registered.  If the selections of all fragments are covered, so are the selections on whatever is
collected; and what is recorded by name is registered.

## What is here

* `Collector.Covers`; `Collector.Covers.of_yields` and `Collector.Covers.of_collect` go on to what
  is reached and collected.
* `Collector.Covers.exists_get?_of_mem_spreads` — fragments that are recorded by name.
-/

set_option autoImplicit false

namespace ResponseTypes
namespace Collector

/-- All fields inside a list of selections have a property, and all fragments that are used there
are registered. -/
structure Covers (x : Collector) (P : Field → Option SelectionSet → Prop) (l : List Selection) :
    Prop where
  all : ∀ s ∈ l, s.All P
  holds : x.fragments.Holds l

variable {x : Collector} {P : Field → Option SelectionSet → Prop}

namespace Covers

/-- Selections that are put together are covered if the parts are. -/
theorem of_flatMap {parts : List SelectionSet} (h : ∀ part ∈ parts, x.Covers P part.selections) :
    x.Covers P (parts.flatMap SelectionSet.selections) where
  all := by
    intro s hs
    obtain ⟨part, hpart, hs⟩ := List.mem_flatMap.1 hs
    exact (h part hpart).all s hs
  holds := by
    intro k name huses
    obtain ⟨s, hs, huses⟩ := huses.exists_singleton
    obtain ⟨part, hpart, hs⟩ := List.mem_flatMap.1 hs
    exact (h part hpart).holds k name (huses.mono (List.cons_subset.2 ⟨hs, List.nil_subset _⟩))

variable (hfragments : ∀ g ∈ x.fragments, x.Covers P g.set.selections)

include hfragments

/-- A field that is reached has the property, and the selections on it are covered. -/
theorem of_yields {object? : Option String} {l : List Selection} {f : Field}
    {set? : Option SelectionSet} (h : x.Yields object? l f set?) (hl : x.Covers P l) :
    P f set? ∧ ∀ set ∈ set?, x.Covers P set.selections := by
  induction h with
  | leaf hmem =>
    cases hl.all _ hmem with
    | leaf hf => exact ⟨hf, by simp⟩
  | branch hmem =>
    cases hl.all _ hmem with
    | branch hf hset =>
      refine ⟨hf, ?_⟩
      rintro set ⟨⟩
      exact ⟨SelectionSet.all_iff.1 hset, fun k name huses => hl.holds _ _ (.branch hmem huses)⟩
  | inline hmem _ _ ih =>
    cases hl.all _ hmem with
    | inline hset =>
      exact ih ⟨SelectionSet.all_iff.1 hset, fun k name huses => hl.holds _ _ (.inline hmem huses)⟩
  | spread _ _ _ hget _ ih => exact ih (hfragments _ (FragmentRegistry.mem_of_get? hget))

/-- **What is collected** has the type of a field with the property, and the selections on it are
covered. -/
theorem of_collect {set : SelectionSet} (hset : x.Covers P set.selections)
    {object? : Option String} {c : Collected} (hc : x.collect set object? = .ok c)
    {m : MergedField} (hm : m ∈ c.fields) :
    (∃ f set?, P f set? ∧ f.type = m.type) ∧ ∀ below ∈ m.set?, x.Covers P below.selections := by
  constructor
  · obtain ⟨f, set?, hyields, -, htype⟩ := (exists_mem_fields_iff hc).1 ⟨m, hm, rfl, rfl⟩
    exact ⟨f, set?, (of_yields hfragments hyields hset).1, htype⟩
  · intro below hbelow
    obtain ⟨first, rest, rfl, hyields⟩ := exists_parts_of_mem hc hm hbelow
    refine of_flatMap fun part hpart => ?_
    obtain ⟨f, hf⟩ := hyields part hpart
    exact (of_yields hfragments hf hset).2 part rfl

/-- **A fragment that is recorded by name** in a variant is registered. -/
theorem exists_get?_of_mem_spreads {set : SelectionSet} (hset : x.Covers P set.selections)
    {vs : List Variant} (h : x.variants set = .ok vs) {v : Variant} (hv : v ∈ vs) {name : String}
    (hname : name ∈ v.spreads) : ∃ f, x.fragments.get? name = some f := by
  obtain ⟨possible, object?, c, hc, heq⟩ := exists_collect_of_mem_variants h hv
  have hspreads : v.spreads = c.spreads := by
    rcases heq with rfl | rfl <;> rfl
  rw [hspreads, (sums_of_collect hc).spreads, List.mem_eraseDups] at hname
  obtain ⟨e, he, hrecorded⟩ := List.mem_filterMap.1 hname
  refine exists_get?_of_mem_encounters hset.holds (fun g hg => (hfragments g hg).holds) he ?_
  cases e with
  | recorded p other => exact hrecorded
  | field p f set? => cases hrecorded
  | missing p other => cases hrecorded

end Covers
end Collector
end ResponseTypes
