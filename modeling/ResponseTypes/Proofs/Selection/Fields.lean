import ResponseTypes.Proofs.Collection.Merged
import ResponseTypes.Proofs.Collection.Yielding

/-!
# What holds of all fields

A property that all fields inside some selections have is handed on to whatever is collected from
them, as long as the fragments have it too.  The property may speak of the selections made on the
value of a field; merging puts together selections that have it.

## What is here

* `SelectionSet.All` — every field inside has a property.
* `Collector.Yields.all` — what is reached has it; `Collector.exists_fields_of_mem` says that what
  is collected is made of what has it.
* `Collector.exists_parts_of_mem` — the selections on what is collected are made of those on what is
  reached.
-/

set_option autoImplicit false

namespace ResponseTypes

mutual

/-- Every field inside a selection has a property, together with the selections made on its value.
-/
inductive Selection.All (P : Field → Option SelectionSet → Prop) : Selection → Prop where
  | leaf {f : Field} (h : P f none) : Selection.All P (.leaf f)
  | branch {f : Field} {set : SelectionSet} (h : P f (some set)) (hset : SelectionSet.All P set) :
    Selection.All P (.branch f set)
  | inline {condition : String} {possible : List String} {set : SelectionSet}
    (hset : SelectionSet.All P set) : Selection.All P (.inline condition possible set)
  | spread {name condition : String} {possible : List String} :
    Selection.All P (.spread name condition possible)

/-- Every field inside a selection set has a property. -/
inductive SelectionSet.All (P : Field → Option SelectionSet → Prop) : SelectionSet → Prop where
  | intro {set : SelectionSet} (h : ∀ s ∈ set.selections, Selection.All P s) :
    SelectionSet.All P set

end

variable {P : Field → Option SelectionSet → Prop}

theorem SelectionSet.all_iff {set : SelectionSet} :
    set.All P ↔ ∀ s ∈ set.selections, s.All P :=
  ⟨fun ⟨h⟩ => h, .intro⟩

mutual

theorem Selection.All.imp {Q : Field → Option SelectionSet → Prop}
    (h : ∀ f set?, P f set? → Q f set?) : {s : Selection} → s.All P → s.All Q
  | _, .leaf hf => .leaf (h _ _ hf)
  | _, .branch hf hset => .branch (h _ _ hf) (hset.imp h)
  | _, .inline hset => .inline (hset.imp h)
  | _, .spread => .spread

theorem SelectionSet.All.imp {Q : Field → Option SelectionSet → Prop}
    (h : ∀ f set?, P f set? → Q f set?) : {set : SelectionSet} → set.All P → set.All Q
  | _, .intro hall => .intro fun s hs => (hall s hs).imp h

end

mutual

theorem Selection.All.and {Q : Field → Option SelectionSet → Prop} : {s : Selection} →
    s.All P → s.All Q → s.All fun f set? => P f set? ∧ Q f set?
  | _, .leaf hf, .leaf hf' => .leaf ⟨hf, hf'⟩
  | _, .branch hf hset, .branch hf' hset' => .branch ⟨hf, hf'⟩ (hset.and hset')
  | _, .inline hset, .inline hset' => .inline (hset.and hset')
  | _, .spread, .spread => .spread

theorem SelectionSet.All.and {Q : Field → Option SelectionSet → Prop} : {set : SelectionSet} →
    set.All P → set.All Q → set.All fun f set? => P f set? ∧ Q f set?
  | _, .intro hall, .intro hall' => .intro fun s hs => (hall s hs).and (hall' s hs)

end

namespace Collector

variable {x : Collector} {object? : Option String}

/-- **What is reached has the property.** -/
theorem Yields.all {l : List Selection} {f : Field} {set? : Option SelectionSet}
    (h : Yields x object? l f set?) (hl : ∀ s ∈ l, s.All P)
    (hfragments : ∀ g ∈ x.fragments, g.set.All P) : P f set? ∧ ∀ set ∈ set?, set.All P := by
  induction h with
  | leaf hmem =>
    cases hl _ hmem with
    | leaf hP => exact ⟨hP, by simp⟩
  | branch hmem =>
    cases hl _ hmem with
    | branch hP hset => exact ⟨hP, by simpa using hset⟩
  | inline hmem _ _ ih =>
    cases hl _ hmem with
    | inline hset => exact ih (SelectionSet.all_iff.1 hset)
  | spread _ _ _ hget _ ih =>
    exact ih (SelectionSet.all_iff.1 (hfragments _ (List.mem_of_find?_eq_some hget)))

/-- **What is collected is made of fields with the property**: those of one key, all of one type,
the first of which gives its name. -/
theorem exists_fields_of_mem {set : SelectionSet} {c : Collected} (hset : set.All P)
    (hfragments : ∀ g ∈ x.fragments, g.set.All P) (hc : x.collect set object? = .ok c)
    {m : MergedField} (hm : m ∈ c.fields) :
    ∃ f es, (∃ p set?, .field p f set? ∈ es) ∧ m = .ofField f (Encounter.joined es) ∧
      ∀ e ∈ es, ∃ p g set?, e = .field p g set? ∧ g.type = f.type ∧ P g set? ∧
        ∀ set ∈ set?, set.All P := by
  have hsums := sums_of_collect hc
  obtain ⟨p, f, set?, hhead, heq⟩ := Encounter.eq_of_merged? (hsums.fields m hm)
  have hmem := List.mem_of_mem_head? hhead
  refine ⟨f, _, ⟨p, set?, hmem⟩, heq, ?_⟩
  intro e he
  have hkey : ∀ e ∈ (x.encounters set object?).filter (Encounter.hasKey m.key),
      e.key? = some m.key := by
    intro e he
    simpa [Encounter.hasKey] using (List.mem_filter.1 he).2
  cases e with
  | field q g set?' =>
    have hyields := yields_of_mem_encounters (List.mem_filter.1 he).1
    refine ⟨q, g, set?', rfl, ?_, hyields.all (SelectionSet.all_iff.1 hset) hfragments⟩
    have hgf : g.key = f.key := Option.some.inj ((hkey _ he).trans (hkey _ hmem).symm)
    have htype := hsums.types q g set?' (List.mem_filter.1 he).1
    rw [hgf, hsums.types p f set? (List.mem_filter.1 hmem).1] at htype
    exact (Option.some.inj htype).symm
  | recorded q name => cases hkey _ he
  | missing q name => cases hkey _ he

/-- **The selections on what is collected** are those on fields that are reached, put together. -/
theorem exists_parts_of_mem {set : SelectionSet} {c : Collected}
    (hc : x.collect set object? = .ok c) {m : MergedField} (hm : m ∈ c.fields)
    {below : SelectionSet} (hset : m.set? = some below) :
    ∃ first rest, below
        = { first with selections := (first :: rest).flatMap SelectionSet.selections } ∧
      ∀ part ∈ first :: rest, ∃ f, x.Yields object? set.selections f (some part) := by
  rw [Encounter.set?_of_merged? ((sums_of_collect hc).fields m hm), Encounter.joined] at hset
  split at hset
  · cases hset
  · rename_i s sets hparts
    refine ⟨s, sets, (Option.some.inj hset).symm, fun part hpart => ?_⟩
    rw [← hparts] at hpart
    obtain ⟨e, he, hpart⟩ := List.mem_filterMap.1 hpart
    cases e with
    | field p f set? =>
      obtain rfl : set? = some part := hpart
      exact ⟨f, yields_of_mem_encounters (List.mem_filter.1 he).1⟩
    | recorded p name => cases hpart
    | missing p name => cases hpart

end Collector

namespace Encounter

theorem joined_isSome (es : List Encounter) :
    (joined es).isSome = es.any fun e => e.set?.isSome := by
  rw [joined]
  cases h : es.filterMap Encounter.set? with
  | nil =>
    rw [List.filterMap_eq_nil_iff] at h
    rw [eq_comm, Option.isSome_none, List.any_eq_false]
    intro e he
    rw [h e he, Option.isSome_none]
    exact Bool.false_ne_true
  | cons s sets =>
    obtain ⟨e, he, hs⟩ := List.mem_filterMap.1 (h ▸ List.mem_cons_self : s ∈ es.filterMap set?)
    rw [eq_comm, Option.isSome_some, List.any_eq_true]
    exact ⟨e, he, by rw [hs, Option.isSome_some]⟩

/-- Selections that are put together keep the property. -/
theorem all_of_joined {es : List Encounter} {set : SelectionSet} (h : joined es = some set)
    (hes : ∀ e ∈ es, ∀ s ∈ e.set?, s.All P) : set.All P := by
  rw [joined] at h
  cases hsets : es.filterMap Encounter.set? with
  | nil =>
    rw [hsets] at h
    cases h
  | cons s sets =>
    rw [hsets] at h
    obtain rfl := Option.some.inj h
    rw [SelectionSet.all_iff]
    intro t ht
    obtain ⟨r, hr, htr⟩ := List.mem_flatMap.1 ht
    rw [← hsets] at hr
    obtain ⟨e, he, her⟩ := List.mem_filterMap.1 hr
    exact SelectionSet.all_iff.1 (hes e he r her) t htr

end Encounter
end ResponseTypes
