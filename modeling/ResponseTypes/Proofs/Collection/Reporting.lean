import Mathlib.Data.List.Perm.Basic
import ResponseTypes.Proofs.Collection.Following

/-!
# Which conflict is reported

Merging compares a field with one other only, the first of its key.  If it finds no difference, all
fields of a key have the type of the first, and any two of them agree.  In this way, nothing that
comes up late is missed, although no two late fields are ever compared.

What is reported depends on the order of the selections.  Whether something is reported does not,
nor do the types under the keys, nor which fragments are recorded.

## What is here

* `Collector.mem_spreads_iff_cites` — which fragments are recorded.
* `Collector.Agrees` and `Collector.agrees_of_perm` — selections in another order.
* `Collector.DetectsConflicts` and `Collector.detectsConflicts`.
-/

set_option autoImplicit false

namespace ResponseTypes

/-! ## Recorded fragments -/

namespace Collector

/-- Where uses of fragments are merged, none is recorded. -/
theorem recorded_not_mem_walk {x : Collector} (hmerges : x.merges = true)
    {object? : Option String} {opened : List String} {todo : List Placed} {q : Place}
    {name : String} : .recorded q name ∉ x.walk object? opened todo := by
  induction opened, todo using walk.induct x object? with
  | case1 opened => simp [walk]
  | case2 opened p f rest ih => simpa [walk] using ih
  | case3 opened p f set rest ih => simpa [walk] using ih
  | case4 opened p condition possible set rest happlies ihset ih =>
    rw [walk, if_pos happlies, List.mem_append]
    exact not_or.2 ⟨ihset, ih⟩
  | case5 opened p condition possible set rest happlies ih =>
    rw [walk, if_neg happlies]
    exact ih
  | case6 opened p other condition possible rest happlies _ hopen ih =>
    rw [walk, if_pos happlies, if_pos hmerges, dif_pos hopen]
    exact ih
  | case7 opened p other condition possible rest happlies _ hopen hget ih =>
    rw [walk_missing _ _ _ happlies hmerges (by simpa using hopen) hget]
    simpa using ih
  | case8 opened p other condition possible rest happlies _ hopen f hget ihbody ih =>
    rw [walk_opening _ _ _ happlies hmerges (by simpa using hopen) hget, List.mem_append]
    exact not_or.2 ⟨ihbody, ih⟩
  | case9 opened p other condition possible rest happlies hrecords ih =>
    exact absurd hmerges hrecords
  | case10 opened p other condition possible rest happlies ih =>
    rw [walk, if_neg happlies]
    exact ih

/-- **Which fragments are recorded**: none where uses are merged, and all whose uses apply where
they are not. -/
theorem mem_spreads_iff_cites {x : Collector} {set : SelectionSet} {object? : Option String}
    {c : Collected} (hc : x.collect set object? = .ok c) {name : String} :
    name ∈ c.spreads ↔ x.merges = false ∧ Cites object? set.selections name := by
  obtain ⟨r, merges⟩ := x
  cases merges with
  | false => exact (mem_spreads_iff (r := r) hc).trans (and_iff_right rfl).symm
  | true =>
    rw [(sums_of_collect hc).spreads, List.mem_eraseDups, List.mem_filterMap]
    constructor
    · rintro ⟨e, he, hname⟩
      cases e with
      | recorded p other => exact absurd he (recorded_not_mem_walk rfl)
      | field p f set? => cases hname
      | missing p other => cases hname
    · rintro ⟨hmerges, -⟩
      cases hmerges

/-! ## Another order -/

theorem Cites.mono {object? : Option String} {l l' : List Selection} {name : String}
    (h : Cites object? l name) (hl : l ⊆ l') : Cites object? l' name := by
  cases h with
  | spread hmem happlies => exact .spread (hl hmem) happlies
  | inline hmem happlies h => exact .inline (hl hmem) happlies h

variable (x : Collector) (object? : Option String)

/-- From two selection sets one collects alike: from both or from neither, and then the same types
under the same keys, and the same recorded fragments. -/
structure Agrees (set set' : SelectionSet) : Prop where
  succeeds : (∃ c, x.collect set object? = .ok c) ↔ ∃ c, x.collect set' object? = .ok c
  fields : ∀ c c', x.collect set object? = .ok c → x.collect set' object? = .ok c' →
    ∀ key type, (∃ m ∈ c.fields, m.key = key ∧ m.type = type) ↔
      ∃ m ∈ c'.fields, m.key = key ∧ m.type = type
  spreads : ∀ c c', x.collect set object? = .ok c → x.collect set' object? = .ok c' →
    ∀ name, name ∈ c.spreads ↔ name ∈ c'.spreads

variable {x object?} {set : SelectionSet}

/-- **When collecting succeeds**: all fields of one key have one type. -/
theorem exists_collect_iff (hset : x.fragments.Holds set.selections)
    (hfragments : ∀ g ∈ x.fragments, x.fragments.Holds g.set.selections) :
    (∃ c, x.collect set object? = .ok c) ↔
      ∀ key first second, ¬ x.ConflictsAt set object? key first second := by
  constructor
  · rintro ⟨c, hc⟩
    exact not_conflictsAt_of_collect_eq_ok hc
  · intro hnone
    cases hc : x.collect set object? with
    | ok c => exact ⟨c, rfl⟩
    | error err =>
      obtain ⟨key, first, second, hconflict, -⟩ :=
        conflictsAt_of_collect_eq_error hset hfragments hc
      exact absurd hconflict (hnone key first second)

theorem ConflictsAt.mono {set' : SelectionSet} {key : String} {first second : ResolvedType}
    (h : x.ConflictsAt set object? key first second) (hl : set.selections ⊆ set'.selections) :
    x.ConflictsAt set' object? key first second := by
  obtain ⟨f, g, set?, set?', hf, hg, hrest⟩ := h
  exact ⟨f, g, set?, set?', hf.mono hl, hg.mono hl, hrest⟩

/-- **The order of selections does not matter** to whether collecting succeeds, to the types under
the keys, and to which fragments are recorded. -/
theorem agrees_of_perm (hset : x.fragments.Holds set.selections)
    (hfragments : ∀ g ∈ x.fragments, x.fragments.Holds g.set.selections) {set' : SelectionSet}
    (hperm : set.selections.Perm set'.selections) : x.Agrees object? set set' where
  succeeds := by
    have hset' : x.fragments.Holds set'.selections := fun k name huses =>
      hset k name (huses.mono hperm.symm.subset)
    rw [exists_collect_iff hset hfragments, exists_collect_iff hset' hfragments]
    constructor
    · intro h key first second hconflict
      exact h key first second (hconflict.mono hperm.symm.subset)
    · intro h key first second hconflict
      exact h key first second (hconflict.mono hperm.subset)
  fields := by
    intro c c' hc hc' key type
    rw [exists_mem_fields_iff hc, exists_mem_fields_iff hc']
    constructor
    · rintro ⟨f, set?, hyields, hf⟩
      exact ⟨f, set?, hyields.mono hperm.subset, hf⟩
    · rintro ⟨f, set?, hyields, hf⟩
      exact ⟨f, set?, hyields.mono hperm.symm.subset, hf⟩
  spreads := by
    intro c c' hc hc' name
    rw [mem_spreads_iff_cites hc, mem_spreads_iff_cites hc']
    exact and_congr_right' ⟨fun h => h.mono hperm.subset, fun h => h.mono hperm.symm.subset⟩

/-! ## Conflicts, exactly -/

/-- Collecting from a selection set for an object type finds conflicts exactly, and reports the
earliest; what it collects is told by what it comes across. -/
structure DetectsConflicts (x : Collector) (set : SelectionSet) (object? : Option String) :
    Prop where
  /-- The fields that are come across are those that can be reached. -/
  reaches : ∀ f set?, (∃ p, .field p f set? ∈ x.encounters set object?) ↔
    x.Yields object? set.selections f set?
  /-- It fails if and only if two fields that can be reached have one key and different types. -/
  fails_iff : (∃ err, x.collect set object? = .error err) ↔
    ∃ key first second, x.ConflictsAt set object? key first second
  /-- It reports the earliest field that differs from the first one of its key. -/
  reports : ∀ err, x.collect set object? = .error err →
    Encounter.EarliestConflict (x.encounters set object?) err
  /-- Each key is there once, in the order in which they first come up. -/
  keys : ∀ c, x.collect set object? = .ok c →
    c.fields.map MergedField.key
      = ((x.encounters set object?).filterMap Encounter.key?).eraseDups
  /-- A field is the first one of its key, with the selections of all of them in order. -/
  joins : ∀ c, x.collect set object? = .ok c → ∀ m ∈ c.fields,
    ∃ p f set?,
      ((x.encounters set object?).filter (Encounter.hasKey m.key)).head?
        = some (.field p f set?) ∧
      m = .ofField f
        (Encounter.joined ((x.encounters set object?).filter (Encounter.hasKey m.key)))
  /-- Another order of the selections changes only what the order decides. -/
  permutes : ∀ selections, set.selections.Perm selections →
    x.Agrees object? set { set with selections }

/-- **Collecting detects conflicts exactly**: it fails if and only if two fields that can be reached
have one response key and different types, and then it names the earliest field that differs from
the first of its key.  If it succeeds, there is one field for each key, in the order of first
occurrence, with the selections of all its occurrences one after the other.  Whether it fails, the
types under the keys and the fragments that are recorded do not depend on the order of the
selections. -/
theorem detectsConflicts (x : Collector) (set : SelectionSet) (object? : Option String)
    (hset : x.fragments.Holds set.selections)
    (hfragments : ∀ g ∈ x.fragments, x.fragments.Holds g.set.selections) :
    x.DetectsConflicts set object? where
  reaches := fun _ _ => ⟨fun ⟨_, hp⟩ => yields_of_mem_encounters hp, exists_field_of_mem_yields⟩
  fails_iff := by
    constructor
    · rintro ⟨err, herr⟩
      obtain ⟨key, first, second, hconflict, -⟩ :=
        conflictsAt_of_collect_eq_error hset hfragments herr
      exact ⟨key, first, second, hconflict⟩
    · rintro ⟨key, first, second, hconflict⟩
      cases hc : x.collect set object? with
      | ok c => exact absurd hconflict (not_conflictsAt_of_collect_eq_ok hc key first second)
      | error err => exact ⟨err, rfl⟩
  reports := by
    intro err herr
    rw [collect_eq_foldlM] at herr
    exact Collected.earliestConflict_of_foldlM (missing_not_mem_encounters hset hfragments) herr
  keys := fun _ hc => (sums_of_collect hc).keys
  joins := fun _ hc m hm => Encounter.eq_of_merged? ((sums_of_collect hc).fields m hm)
  permutes := fun _ hperm => agrees_of_perm hset hfragments hperm

end Collector

/-! ## Two fragments that use each other -/

/-- Fragments on cats that use each other, of which the second gives a key two types. -/
def rivals : Collector where
  fragments := [{
      name := "Common"
      typeCondition := "Cat"
      set := {
        parentType := "Cat"
        possible := ["Cat"]
        selections := [.leaf ⟨"name", none, .named .scalar "String", none⟩,
          .spread "Special" "Cat" ["Cat"]] } }, {
      name := "Special"
      typeCondition := "Cat"
      set := {
        parentType := "Cat"
        possible := ["Cat"]
        selections := [.spread "Common" "Cat" ["Cat"],
          .leaf ⟨"lives", some "name", .named .scalar "Int", none⟩] } }]
  merges := true

/-- What is selected by using the first of them. -/
def rivalSet : SelectionSet where
  parentType := "Cat"
  possible := ["Cat"]
  selections := [.spread "Common" "Cat" ["Cat"]]

/-- The name comes first, and the lives under its key are reported. -/
theorem detectsConflicts_rivals :
    rivals.collect rivalSet (some "Cat")
        = .error (.fieldMergeConflict "name" (.named .scalar "String") (.named .scalar "Int")) ∧
      Encounter.EarliestConflict (rivals.encounters rivalSet (some "Cat"))
        (.fieldMergeConflict "name" (.named .scalar "String") (.named .scalar "Int")) := by
  have hholds : ∀ l : List Selection, (∀ k name, Selection.Uses l k name →
      name = "Common" ∨ name = "Special") → rivals.fragments.Holds l := by
    intro l h k name huses
    rcases h k name huses with rfl | rfl
    · exact ⟨_, rfl⟩
    · exact ⟨_, rfl⟩
  have hset : rivals.fragments.Holds rivalSet.selections := by
    refine hholds _ fun k name huses => .inl ?_
    obtain ⟨-, hname⟩ : k = 0 ∧ name = "Common" := by simpa [rivalSet] using huses
    exact hname
  have hfragments : ∀ g ∈ rivals.fragments, rivals.fragments.Holds g.set.selections := by
    intro g hg
    refine hholds _ fun k name huses => ?_
    simp only [rivals, List.mem_cons, List.not_mem_nil, or_false] at hg
    rcases hg with rfl | rfl
    · obtain ⟨-, hname⟩ : k = 0 ∧ name = "Special" := by simpa using huses
      exact .inr hname
    · obtain ⟨-, hname⟩ : k = 0 ∧ name = "Common" := by simpa using huses
      exact .inl hname
  have herr : rivals.collect rivalSet (some "Cat")
      = .error (.fieldMergeConflict "name" (.named .scalar "String") (.named .scalar "Int")) := by
    cbv
  exact ⟨herr,
    (Collector.detectsConflicts rivals rivalSet (some "Cat") hset hfragments).reports _ herr⟩

end ResponseTypes
