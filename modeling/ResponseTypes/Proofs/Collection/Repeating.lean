import Mathlib.Data.List.Perm.Basic
import ResponseTypes.Proofs.Collection.Conflicts
import ResponseTypes.Selection.Variant

/-!
# Collecting what is selected twice

If all selections of a set are made once more, behind the others, nothing new is come across.  The
fields stay the same, in the same order, but the selections made on their values are there twice as
well.  So collecting does not forget the repetition; it hands it on to the next level.

Whether two object types belong in one variant does not depend on it: lists are equal if and only if
they are when put twice.

## What is here

* `MergedField.twice`, `Collected.twice`, `Variant.twice` — with the selections on values made
  twice.
* `Collected.Sums.eq` — what has been collected is determined by what was come across.
* `Collector.collect_append_self` and `Collector.variants_append_self`.
-/

set_option autoImplicit false

namespace ResponseTypes

/-! ## Twice the selections -/

theorem SelectionSet.append_self_injective :
    Function.Injective fun set : SelectionSet => set.append set := by
  rintro ⟨parent, possible, l⟩ ⟨parent', possible', l'⟩ h
  simp only [append, SelectionSet.mk.injEq] at h
  obtain ⟨rfl, rfl, h⟩ := h
  have hlength : l.length = l'.length := by
    have := congrArg List.length h
    simp only [List.length_append] at this
    omega
  rw [(List.append_inj h hlength).1]

/-- The field with the selections on its value made twice. -/
def MergedField.twice (m : MergedField) : MergedField :=
  { m with set? := m.set?.map fun set => set.append set }

/-- What was collected, with the selections on all values made twice. -/
def Collected.twice (c : Collected) : Collected :=
  { c with fields := c.fields.map MergedField.twice }

/-- The variant with the selections on all values made twice. -/
def Variant.twice (v : Variant) : Variant :=
  { v with fields := v.fields.map MergedField.twice }

/-! ## Encounters -/

namespace Encounter

theorem joined_append_self (es : List Encounter) :
    joined (es ++ es) = (joined es).map fun set => set.append set := by
  rw [joined, joined, List.filterMap_append]
  cases es.filterMap Encounter.set? with
  | nil => rfl
  | cons s sets => simp [SelectionSet.append]

theorem merged?_append_self {es : List Encounter} {m : MergedField} (h : merged? es = some m) :
    merged? (es ++ es) = some m.twice := by
  obtain ⟨p, f, set?, hhead, rfl⟩ := eq_of_merged? h
  obtain ⟨rest, rfl⟩ : ∃ rest, es = .field p f set? :: rest := List.head?_eq_some_iff.1 hhead
  obtain ⟨n, hn⟩ : ∃ n, merged? (.field p f set? :: rest ++ .field p f set? :: rest) = some n :=
    ⟨_, rfl⟩
  obtain ⟨q, g, set?', hhead', rfl⟩ := eq_of_merged? hn
  cases hhead'
  rw [hn, joined_append_self]
  rfl

end Encounter

/-! ## What has been collected -/

namespace Collected.Sums

variable {c d : Collected} {es fs : List Encounter}

/-- What has been collected is determined by what was come across. -/
theorem eq (h : c.Sums es) (h' : d.Sums es) : c = d := by
  have hsame : c.fields = d.fields :=
    List.map_injective_iff.2 (fun _ _ => Option.some.inj)
      (h.map_some_fields.trans h'.map_some_fields.symm)
  have hspreads : c.spreads = d.spreads := h.spreads.trans h'.spreads.symm
  cases c
  cases d
  cases hsame
  cases hspreads
  rfl

/-- What was merged before can all be merged again. -/
theorem exists_foldlM_eq_ok (h : c.Sums es) (hfs : fs ⊆ es) :
    ∃ d, fs.foldlM Collected.meet c = .ok d := by
  induction fs generalizing c es with
  | nil => exact ⟨c, rfl⟩
  | cons e fs ih =>
    obtain ⟨he, hfs⟩ := List.cons_subset.1 hfs
    obtain ⟨c', hmeet⟩ := h.exists_meet_eq_ok he
    obtain ⟨d, hd⟩ := ih (h.meet hmeet) (List.subset_append_of_subset_left _ hfs)
    exact ⟨d, by rw [List.foldlM_cons, hmeet]; exact hd⟩

/-- **What is come across twice** makes the same fields, with the selections on their values made
twice. -/
theorem twice (h : c.Sums es) : c.twice.Sums (es ++ es) where
  keys := by
    rw [List.filterMap_append, eraseDups_append_of_subset (List.Subset.refl _), ← h.keys,
      Collected.twice, List.map_map]
    rfl
  spreads := by
    rw [List.filterMap_append, eraseDups_append_of_subset (List.Subset.refl _)]
    exact h.spreads
  fields := by
    intro n hn
    obtain ⟨m, hm, rfl⟩ := List.mem_map.1 hn
    rw [List.filter_append]
    exact Encounter.merged?_append_self (h.fields m hm)
  types := by
    intro p f set? hf
    rw [← h.types p f set? (or_self_iff.1 (List.mem_append.1 hf)), MergedField.typeAt?,
      MergedField.typeAt?, Collected.twice, List.find?_map, Option.map_map]
    rfl
  found := fun p name hmem => h.found p name (or_self_iff.1 (List.mem_append.1 hmem))

end Collected.Sums

theorem Collected.foldlM_append_self (es : List Encounter) :
    (es ++ es).foldlM meet {} = (es.foldlM meet {}).map twice := by
  rw [List.foldlM_append]
  cases hes : es.foldlM meet ({} : Collected) with
  | error err => rfl
  | ok c =>
    have hsums := sums_of_foldlM hes
    obtain ⟨d, hd⟩ := hsums.exists_foldlM_eq_ok (List.Subset.refl es)
    have hagain : (es ++ es).foldlM meet {} = .ok d := by
      rw [List.foldlM_append, hes]
      exact hd
    obtain rfl : d = c.twice := (sums_of_foldlM hagain).eq hsums.twice
    exact hd

namespace Collector

variable (x : Collector)

/-- **Collecting selections that are made twice** fails where collecting them once does, and yields
the same fields, with the selections on their values made twice. -/
theorem collect_append_self (set : SelectionSet) (object? : Option String) :
    x.collect (set.append set) object? = (x.collect set object?).map Collected.twice := by
  have hselections : (set.append set).selections
      = (Placed.within ⟨none, []⟩ set ++ Placed.within ⟨none, []⟩ set).map Placed.selection := by
    rw [List.map_append, Placed.map_selection_within]
    rfl
  rw [collect, hselections, collectInto_eq_foldlM, walk_append, collect_eq_foldlM]
  exact Collected.foldlM_append_self _

end Collector

/-! ## Variants -/

namespace MergedField

/-- The shape of a field, with the selections on its value made twice. -/
def twiceShape (s : String × ResolvedType × Option SelectionSet) :
    String × ResolvedType × Option SelectionSet :=
  (s.1, s.2.1, s.2.2.map fun set => set.append set)

theorem twiceShape_injective : Function.Injective twiceShape := by
  rintro ⟨key, type, set?⟩ ⟨key', type', set?'⟩ h
  simp only [twiceShape, Prod.mk.injEq] at h
  obtain ⟨rfl, rfl, h⟩ := h
  rw [Option.map_injective SelectionSet.append_self_injective h]

/-- Fields have one shape if they have it with their selections made twice. -/
theorem perm_shape_twice_iff (ms ns : List MergedField) :
    ((ms.map twice).map shape).Perm ((ns.map twice).map shape) ↔
      (ms.map shape).Perm (ns.map shape) := by
  have hshape : ∀ l : List MergedField,
      (l.map twice).map shape = (l.map shape).map twiceShape := by
    intro l
    rw [List.map_map, List.map_map]
    rfl
  rw [hshape, hshape]
  exact List.map_perm_map_iff twiceShape_injective

end MergedField

namespace Variant

theorem hasShape_twice (v : Variant) (c : Collected) :
    v.twice.hasShape c.twice = v.hasShape c := by
  have hfields := MergedField.perm_shape_twice_iff v.fields c.fields
  rw [← List.isPerm_iff, ← List.isPerm_iff, ← Bool.eq_iff_iff] at hfields
  rw [hasShape, hasShape]
  exact congrArg (fun b => b && v.spreads.isPerm c.spreads) hfields

theorem place_twice (object : String) (c : Collected) (vs : List Variant) :
    place object c.twice (vs.map twice) = (place object c vs).map twice := by
  induction vs with
  | nil => rfl
  | cons v vs ih =>
    rw [List.map_cons, place, place, hasShape_twice]
    split
    · rfl
    · rw [ih, List.map_cons]

theorem narrowed_twice (v : Variant) : v.twice.narrowed = v.narrowed.twice := by
  simp only [twice, narrowed, List.map_map, Variant.mk.injEq, true_and, and_true]
  refine List.map_congr_left fun m _ => ?_
  rw [Function.comp_apply, Function.comp_apply]
  by_cases hname : m.isTypename = true
  · rw [if_pos hname, if_pos (show m.twice.isTypename = true from hname)]
    rfl
  · rw [if_neg hname, if_neg (show ¬ m.twice.isTypename = true from hname)]

end Variant

namespace Collector

theorem placeAll_append_self (x : Collector) (set : SelectionSet) (objects : List String)
    (vs : List Variant) :
    x.placeAll (set.append set) objects (vs.map Variant.twice)
      = (x.placeAll set objects vs).map (List.map Variant.twice) := by
  induction objects generalizing vs with
  | nil => rfl
  | cons object objects ih =>
    rw [placeAll, placeAll, collect_append_self]
    cases x.collect set (some object) with
    | error err => rfl
    | ok c =>
      change x.placeAll (set.append set) objects
          (Variant.place object c.twice (vs.map Variant.twice))
        = (x.placeAll set objects (Variant.place object c vs)).map _
      rw [Variant.place_twice, ih]

/-- **The variants of selections that are made twice** are those of selections made once, with the
selections on values made twice. -/
theorem variants_append_self (x : Collector) (set : SelectionSet) :
    x.variants (set.append set) = (x.variants set).map (List.map Variant.twice) := by
  have hpossible : (set.append set).possible = set.possible := rfl
  have hpolymorphic : (set.append set).isPolymorphic = set.isPolymorphic := rfl
  have hparent : (set.append set).parentType = set.parentType := rfl
  rw [variants, variants, hpossible, hpolymorphic, hparent]
  split
  · rw [collect_append_self]
    cases x.collect set none <;> rfl
  · split
    · have hplace := x.placeAll_append_self set set.possible []
      rw [List.map_nil] at hplace
      rw [hplace]
      cases x.placeAll set set.possible [] with
      | error err => rfl
      | ok vs =>
        change Except.ok ((vs.map Variant.twice).map Variant.narrowed)
          = .ok ((vs.map Variant.narrowed).map Variant.twice)
        rw [List.map_map, List.map_map]
        exact congrArg _ (List.map_congr_left fun v _ => v.narrowed_twice)
    · rw [collect_append_self]
      cases x.collect set (some set.parentType) <;> rfl

end Collector
end ResponseTypes
