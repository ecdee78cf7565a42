import ResponseTypes.Proofs.Collection.Conflicts

/-!
# Collecting without repeats

Which fields are collected, and in which order, depends on the selections that there are, but not on
how often each of them is repeated: repeating a selection makes a walk come across the same things
again, wherever they stand.  So a set yields the same as the set of its distinct selections, up to
the repeats on the values of the fields.

## What is here

* `SelectionSet.distinct`, `MergedField.distinct`, `Collected.distinct` — without repeats.
* `Encounter.bare` — what is come across, wherever it stands; `Collector.map_bare_encounters` lists
  it selection by selection.
* `Collector.collect_distinct` — collecting from the distinct selections.
-/

set_option autoImplicit false

namespace ResponseTypes

/-! ## Without repeats -/

/-- The set with each of its selections made once. -/
def SelectionSet.distinct (set : SelectionSet) : SelectionSet :=
  { set with selections := set.selections.eraseDups }

/-- The field with each selection on its value made once. -/
def MergedField.distinct (m : MergedField) : MergedField :=
  { m with set? := m.set?.map SelectionSet.distinct }

/-- What was collected, with each selection on a value made once. -/
def Collected.distinct (c : Collected) : Collected :=
  { c with fields := c.fields.map MergedField.distinct }

/-! ## Encounters -/

namespace Encounter

/-- What is come across, wherever it stands. -/
def bare : Encounter → Encounter
  | .field _ f set? => .field ⟨none, []⟩ f set?
  | .recorded _ name => .recorded ⟨none, []⟩ name
  | .missing _ name => .missing ⟨none, []⟩ name

/-- The selections that repeated encounters contribute are repeated. -/
theorem joined_eraseDups (es : List Encounter) :
    (joined es.eraseDups).map SelectionSet.distinct = (joined es).map SelectionSet.distinct := by
  have hsets := eraseDups_filterMap_eraseDups Encounter.set? es
  have hhead : (es.eraseDups.filterMap set?).head? = (es.filterMap set?).head? := by
    rw [← head?_eraseDups, hsets, head?_eraseDups]
  have hselections : ((es.eraseDups.filterMap set?).flatMap SelectionSet.selections).eraseDups
      = ((es.filterMap set?).flatMap SelectionSet.selections).eraseDups := by
    rw [← eraseDups_flatMap_eraseDups, hsets, eraseDups_flatMap_eraseDups]
  rw [joined, joined]
  cases h : es.filterMap set? with
  | nil =>
    rw [h, List.head?_nil, List.head?_eq_none_iff] at hhead
    rw [hhead]
  | cons s sets =>
    rw [h, List.head?_cons, List.head?_eq_some_iff] at hhead
    obtain ⟨sets', h'⟩ := hhead
    rw [h, h'] at hselections
    rw [h']
    simp only [Option.map_some, SelectionSet.distinct, hselections]

/-- Encounters of one key make the same field without their repeats. -/
theorem merged?_eraseDups (es : List Encounter) :
    (merged? es.eraseDups).map MergedField.distinct
      = (merged? es).map MergedField.distinct := by
  cases es with
  | nil => rfl
  | cons e es =>
    cases e with
    | field p f set? =>
      obtain ⟨m, hm⟩ : ∃ m, merged? (.field p f set? :: es) = some m := ⟨_, rfl⟩
      obtain ⟨n, hn⟩ : ∃ n, merged? (List.eraseDups (.field p f set? :: es)) = some n := by
        rw [List.eraseDups_cons]
        exact ⟨_, rfl⟩
      obtain ⟨_, _, _, hhead, rfl⟩ := eq_of_merged? hm
      obtain ⟨_, _, _, hhead', rfl⟩ := eq_of_merged? hn
      rw [head?_eraseDups] at hhead'
      cases hhead
      cases hhead'
      have hjoined := joined_eraseDups (.field p f set? :: es)
      rw [hm, hn, Option.map_some, Option.map_some]
      simp only [MergedField.distinct, MergedField.ofField, hjoined]
    | recorded p name =>
      rw [List.eraseDups_cons]
      rfl
    | missing p name =>
      rw [List.eraseDups_cons]
      rfl

end Encounter

/-! ## Merging -/

namespace Collected

theorem meet_bare (c : Collected) (e : Encounter) : c.meet e.bare = c.meet e := by
  cases e <;> rfl

theorem foldlM_map_bare (es : List Encounter) (c : Collected) :
    (es.map Encounter.bare).foldlM meet c = es.foldlM meet c := by
  rw [List.foldlM_map]
  simp only [meet_bare]

/-- What has been collected does not depend on repeats, up to the repeats on the values. -/
theorem Sums.distinct_eq {c d : Collected} {es fs : List Encounter} (h : c.Sums es)
    (h' : d.Sums fs) (heq : es.eraseDups = fs.eraseDups) : c.distinct = d.distinct := by
  have hfields : ∀ {a : Collected} {as : List Encounter}, a.Sums as →
      (a.fields.map MergedField.distinct).map some
        = (as.eraseDups.filterMap Encounter.key?).eraseDups.map fun key =>
            (Encounter.merged? (as.eraseDups.filter (Encounter.hasKey key))).map
              MergedField.distinct := by
    intro a as ha
    have hmap := congrArg (List.map (Option.map MergedField.distinct)) ha.map_some_fields
    rw [List.map_map, List.map_map] at hmap
    rw [eraseDups_filterMap_eraseDups, List.map_map]
    refine hmap.trans (List.map_congr_left fun key _ => ?_)
    rw [← eraseDups_filter, Encounter.merged?_eraseDups]
    rfl
  have hsame : c.fields.map MergedField.distinct = d.fields.map MergedField.distinct := by
    refine List.map_injective_iff.2 (fun _ _ => Option.some.inj) ?_
    rw [hfields h, hfields h', heq]
  have hspreads : c.spreads = d.spreads := by
    rw [h.spreads, h'.spreads, ← eraseDups_filterMap_eraseDups, heq, eraseDups_filterMap_eraseDups]
  rw [distinct, distinct, hsame, hspreads]

/-- **Merging does not depend on repeats**, up to the repeats on the values. -/
theorem foldlM_distinct {es fs : List Encounter} (heq : es.eraseDups = fs.eraseDups) :
    (es.foldlM meet {}).map distinct = (fs.foldlM meet {}).map distinct := by
  have herror : ∀ err, es.foldlM meet {} = .error err ↔ fs.foldlM meet {} = .error err := by
    intro err
    rw [← foldlM_eraseDups_eq_error_iff, heq, foldlM_eraseDups_eq_error_iff]
  cases hes : es.foldlM meet ({} : Collected) with
  | error err => rw [(herror err).1 hes]
  | ok c =>
    cases hfs : fs.foldlM meet ({} : Collected) with
    | error err => cases hes.symm.trans ((herror err).2 hfs)
    | ok d => exact congrArg Except.ok ((sums_of_foldlM hes).distinct_eq (sums_of_foldlM hfs) heq)

end Collected

/-! ## Collecting -/

namespace Collector

variable {x : Collector} {object? : Option String}

/-- What a walk comes across does not depend on where the selections stand. -/
theorem map_bare_walk_congr {opened : List String} {todo todo' : List Placed}
    (h : todo.map Placed.selection = todo'.map Placed.selection) :
    (x.walk object? opened todo).map Encounter.bare
      = (x.walk object? opened todo').map Encounter.bare := by
  induction opened, todo using walk.induct x object? generalizing todo' with
  | case1 opened =>
    obtain rfl : todo' = [] := by simpa using h.symm
    rfl
  | case2 opened p f rest ih | case3 opened p f set rest ih =>
    obtain ⟨⟨q, _⟩, rest', rfl, rfl, hrest⟩ := List.map_eq_cons_iff.1 h.symm
    rw [walk, walk, List.map_cons, List.map_cons, ih hrest.symm]
    rfl
  | case4 opened p condition possible set rest happlies ihset ih =>
    obtain ⟨⟨q, _⟩, rest', rfl, rfl, hrest⟩ := List.map_eq_cons_iff.1 h.symm
    have hset : (Placed.within p set).map Placed.selection
        = (Placed.within q set).map Placed.selection := by
      rw [Placed.map_selection_within, Placed.map_selection_within]
    rw [walk, if_pos happlies, walk, if_pos happlies, List.map_append, List.map_append, ihset hset,
      ih hrest.symm]
  | case5 opened p condition possible set rest happlies ih =>
    obtain ⟨⟨q, _⟩, rest', rfl, rfl, hrest⟩ := List.map_eq_cons_iff.1 h.symm
    rw [walk, if_neg happlies, walk, if_neg happlies, ih hrest.symm]
  | case6 opened p name condition possible rest happlies hmerges hopen ih =>
    obtain ⟨⟨q, _⟩, rest', rfl, rfl, hrest⟩ := List.map_eq_cons_iff.1 h.symm
    rw [walk, if_pos happlies, if_pos hmerges, dif_pos hopen, walk, if_pos happlies,
      if_pos hmerges, dif_pos hopen, ih hrest.symm]
  | case7 opened p name condition possible rest happlies hmerges hopen hget ih =>
    obtain ⟨⟨q, _⟩, rest', rfl, rfl, hrest⟩ := List.map_eq_cons_iff.1 h.symm
    have hopen : opened.contains name = false := by simpa using hopen
    rw [walk_missing _ _ _ happlies hmerges hopen hget,
      walk_missing _ _ _ happlies hmerges hopen hget, List.map_cons, List.map_cons, ih hrest.symm]
    rfl
  | case8 opened p name condition possible rest happlies hmerges hopen f hget ihbody ih =>
    obtain ⟨⟨q, _⟩, rest', rfl, rfl, hrest⟩ := List.map_eq_cons_iff.1 h.symm
    have hopen : opened.contains name = false := by simpa using hopen
    rw [walk_opening _ _ _ happlies hmerges hopen hget,
      walk_opening _ _ _ happlies hmerges hopen hget, List.map_append, List.map_append,
      ih hrest.symm]
  | case9 opened p name condition possible rest happlies hmerges ih =>
    obtain ⟨⟨q, _⟩, rest', rfl, rfl, hrest⟩ := List.map_eq_cons_iff.1 h.symm
    rw [walk, if_pos happlies, if_neg hmerges, walk, if_pos happlies, if_neg hmerges,
      List.map_cons, List.map_cons, ih hrest.symm]
    rfl
  | case10 opened p name condition possible rest happlies ih =>
    obtain ⟨⟨q, _⟩, rest', rfl, rfl, hrest⟩ := List.map_eq_cons_iff.1 h.symm
    rw [walk, if_neg happlies, walk, if_neg happlies, ih hrest.symm]

/-- What is come across in one selection. -/
def sights (x : Collector) (object? : Option String) (s : Selection) : List Encounter :=
  (x.walk object? [] [⟨⟨none, []⟩, s⟩]).map Encounter.bare

/-- **What is come across** in a set is come across selection by selection. -/
theorem map_bare_encounters (set : SelectionSet) :
    (x.encounters set object?).map Encounter.bare
      = set.selections.flatMap (x.sights object?) := by
  have hwalk : ∀ todo : List Placed, (x.walk object? [] todo).map Encounter.bare
      = (todo.map Placed.selection).flatMap (x.sights object?) := by
    intro todo
    induction todo with
    | nil => rw [walk, List.map_nil, List.map_nil, List.flatMap_nil]
    | cons t todo ih =>
      have hfirst : (x.walk object? [] [t]).map Encounter.bare = x.sights object? t.selection :=
        map_bare_walk_congr rfl
      rw [← List.singleton_append, walk_append, List.map_append, ih, hfirst]
      rfl
  rw [encounters, hwalk, Placed.map_selection_within]

/-- **Collecting from the distinct selections** of a set fails where collecting from the set does,
and yields the same fields, up to the repeats on their values. -/
theorem collect_distinct (set : SelectionSet) (object? : Option String) :
    (x.collect set.distinct object?).map Collected.distinct
      = (x.collect set object?).map Collected.distinct := by
  rw [collect_eq_foldlM, collect_eq_foldlM, ← Collected.foldlM_map_bare,
    ← Collected.foldlM_map_bare (x.encounters set object?), map_bare_encounters,
    map_bare_encounters]
  exact Collected.foldlM_distinct (eraseDups_flatMap_eraseDups _ _)

end Collector
end ResponseTypes
