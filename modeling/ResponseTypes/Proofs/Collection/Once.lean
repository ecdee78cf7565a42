import ResponseTypes.Proofs.Collection.Merged
import ResponseTypes.Proofs.Collection.Reopening
import ResponseTypes.Proofs.Collection.Yielding

/-!
# Collecting agrees with opening each fragment once

Opening a fragment again makes a walk come across the same things again.  Merging them again cannot
fail, for their types have been merged before, and changes nothing but the selections made on a
field, to which those of the same occurrence of the field are added again.  So the collector fails
where the reference collector does, and yields the same fields up to these repeats.

## What is here

* `Collected.foldlM_eraseDups_eq_error_iff` — repeats change nothing about errors.
* `Collector.exists_field_of_yields` — every field that can be reached is come across.
* `Collector.collect_agrees_collectOnce` — the collector and the reference collector.
-/

set_option autoImplicit false

namespace ResponseTypes

/-! ## Merging repeats -/

namespace Collected

/-- What was merged before can be merged again. -/
theorem Sums.exists_meet_eq_ok {c : Collected} {es : List Encounter} (h : c.Sums es)
    {e : Encounter} (he : e ∈ es) : ∃ d, c.meet e = .ok d := by
  cases e with
  | field p f set? =>
    obtain ⟨fields, hadd⟩ :=
      (MergedField.add_eq_ok_iff f set? c.fields).2 (.inr (h.types p f set? he))
    exact ⟨{ c with fields }, by rw [Collected.meet, hadd]⟩
  | recorded p name => exact ⟨_, rfl⟩
  | missing p name => exact absurd he (h.found p name)

/-- The types under the keys depend on the encounters alone, and not on their number or order. -/
theorem Sums.typeAt?_eq {c d : Collected} {es fs : List Encounter} (h : c.Sums es)
    (h' : d.Sums fs) (hmem : ∀ e, e ∈ es ↔ e ∈ fs) (key : String) :
    MergedField.typeAt? c.fields key = MergedField.typeAt? d.fields key := by
  by_cases hkey : ∃ e ∈ es, e.key? = some key
  · obtain ⟨e, he, hkey⟩ := hkey
    cases e with
    | field p f set? =>
      obtain rfl := Option.some.inj hkey
      rw [h.types p f set? he, h'.types p f set? ((hmem _).1 he)]
    | recorded p name => cases hkey
    | missing p name => cases hkey
  · have hnone : ∀ {a : Collected} {as : List Encounter}, a.Sums as → (∀ e, e ∈ es ↔ e ∈ as) →
        MergedField.typeAt? a.fields key = none := by
      intro a as ha has
      rw [MergedField.typeAt?, Option.map_eq_none_iff, List.find?_eq_none]
      intro m hm hmkey
      obtain ⟨e, he, hekey⟩ := (ha.mem_keys key).1 ⟨m, hm, by simpa using hmkey⟩
      exact hkey ⟨e, (has e).2 he, hekey⟩
    rw [hnone h (fun _ => Iff.rfl), hnone h' hmem]

/-- Whether one more thing can be merged depends on the types under the keys. -/
theorem meet_eq_error_congr {c d : Collected}
    (h : ∀ key, MergedField.typeAt? c.fields key = MergedField.typeAt? d.fields key)
    (e : Encounter) (err : GenerationError) : c.meet e = .error err ↔ d.meet e = .error err := by
  cases e with
  | field p f set? =>
    have hmeet : ∀ a : Collected, a.meet (.field p f set?) = .error err ↔
        MergedField.add f set? a.fields = .error err := by
      intro a
      rw [Collected.meet]
      cases MergedField.add f set? a.fields <;> simp
    rw [hmeet, hmeet, MergedField.add_eq_error_iff, MergedField.add_eq_error_iff, h]
  | recorded p name => simp [Collected.meet]
  | missing p name => simp [Collected.meet]

theorem foldlM_concat_eq_error_iff (es : List Encounter) (e : Encounter) (err : GenerationError) :
    (es ++ [e]).foldlM meet {} = .error err ↔
      es.foldlM meet {} = .error err ∨ ∃ c, es.foldlM meet {} = .ok c ∧ c.meet e = .error err := by
  rw [List.foldlM_append]
  cases es.foldlM meet ({} : Collected) with
  | error err' => simp [bind, Except.bind]
  | ok c =>
    cases h : c.meet e <;> simp [bind, Except.bind, h, pure, Except.pure]

/-- **Merging repeats fails where merging first occurrences does**, and with the same error. -/
theorem foldlM_eraseDups_eq_error_iff (es : List Encounter) (err : GenerationError) :
    es.eraseDups.foldlM meet {} = .error err ↔ es.foldlM meet {} = .error err := by
  induction es using List.reverseRecOn generalizing err with
  | nil => rfl
  | append_singleton es e ih =>
    rw [eraseDups_concat, foldlM_concat_eq_error_iff]
    split
    · rename_i hmem
      rw [ih]
      refine ⟨.inl, ?_⟩
      rintro (herr | ⟨c, hc, hmeet⟩)
      · exact herr
      · obtain ⟨d, hd⟩ := (sums_of_foldlM hc).exists_meet_eq_ok hmem
        cases hd.symm.trans hmeet
    · rw [foldlM_concat_eq_error_iff, ih]
      refine or_congr Iff.rfl ?_
      cases hes : es.foldlM meet ({} : Collected) with
      | error err' =>
        simp [(ih err').2 hes]
      | ok c =>
        cases hfs : es.eraseDups.foldlM meet ({} : Collected) with
        | error err' =>
          cases hes.symm.trans ((ih err').1 hfs)
        | ok d =>
          have htypes := (sums_of_foldlM hfs).typeAt?_eq (sums_of_foldlM hes)
            fun _ => List.mem_eraseDups
          simpa using meet_eq_error_congr htypes e err

end Collected

namespace Collector

variable {x : Collector} {object? : Option String}

/-! ## Nothing is lost -/

/-- What is settled has shown every field that can be reached. -/
theorem Settled.exists_field_of_yields {visited : List String} {seen : List Encounter}
    (hclosed : Closed x object? [] visited seen) {l : List Selection} {f : Field}
    {set? : Option SelectionSet} (hyields : Yields x object? l f set?) {todo : List Placed}
    (hl : todo.map Placed.selection = l) (h : Settled x object? visited seen todo) :
    ∃ p, .field p f set? ∈ seen := by
  induction hyields generalizing todo with
  | leaf hmem =>
    rw [← hl] at hmem
    obtain ⟨⟨p, s⟩, ht, rfl⟩ := List.mem_map.1 hmem
    cases h.singleton ht with
    | leaf hseen _ => exact ⟨p, hseen⟩
  | branch hmem =>
    rw [← hl] at hmem
    obtain ⟨⟨p, s⟩, ht, rfl⟩ := List.mem_map.1 hmem
    cases h.singleton ht with
    | branch hseen _ => exact ⟨p, hseen⟩
  | inline hmem happlies _ ih =>
    rw [← hl] at hmem
    obtain ⟨⟨p, s⟩, ht, rfl⟩ := List.mem_map.1 hmem
    cases h.singleton ht with
    | inline hset _ => exact ih (Placed.map_selection_within _ _) (hset happlies)
  | spread hmem happlies _ hget _ ih =>
    rw [← hl] at hmem
    obtain ⟨⟨p, s⟩, ht, rfl⟩ := List.mem_map.1 hmem
    cases h.singleton ht with
    | spread hname _ =>
      rcases hname happlies with hvisited | ⟨hnone, -⟩
      · rcases hclosed _ hvisited with hopen | ⟨g, hg, hset⟩
        · cases hopen
        · obtain rfl := Option.some.inj (hget.symm.trans hg)
          exact ih (Placed.map_selection_within _ _) hset
      · cases hnone.symm.trans hget

/-- **Every field that can be reached is come across**, though open fragments are not opened again.
-/
theorem exists_field_of_yields (hmerges : x.merges = true) {set : SelectionSet} {f : Field}
    {set? : Option SelectionSet} (h : Yields x object? set.selections f set?) :
    ∃ p, .field p f set? ∈ x.encounters set object? := by
  have htracks := tracks_visit_within hmerges set object?
  obtain ⟨p, hp⟩ := htracks.settled.exists_field_of_yields htracks.closed h
    (Placed.map_selection_within _ _)
  refine ⟨p, ?_⟩
  rw [List.nil_append, htracks.encounters, fresh_nil_left, List.mem_eraseDups] at hp
  exact hp

end Collector

/-! ## The two collectors -/

theorem Encounter.exists_joined_of_mem {es : List Encounter} {e : Encounter} (he : e ∈ es)
    {s : SelectionSet} (hs : e.set? = some s) :
    ∃ t, Encounter.joined es = some t ∧ s.selections <:+: t.selections := by
  have hmem : s ∈ es.filterMap Encounter.set? := List.mem_filterMap.2 ⟨e, he, hs⟩
  rw [Encounter.joined]
  cases hsets : es.filterMap Encounter.set? with
  | nil =>
    rw [hsets] at hmem
    cases hmem
  | cons r sets =>
    rw [hsets] at hmem
    exact ⟨_, rfl, List.infix_of_mem_flatten (List.mem_map_of_mem hmem)⟩

/-- Two collectors have merged the same encounters, one of them with repeats and the other without.
The fields have the same keys in the order in which the keys first come up; under each key,
everything but the selections is that of the first field come across, and the selections are those
of all fields of the key, with the repeats of an occurrence and without them. -/
structure Collected.AgreesUpToRepeats (c d : Collected) (es : List Encounter) : Prop where
  keys : c.fields.map MergedField.key = (es.filterMap Encounter.key?).eraseDups
  fields : List.Forall₂ (fun m n => m.key = n.key ∧ ∃ p f set?,
    (es.filter (Encounter.hasKey m.key)).head? = some (.field p f set?) ∧
      m = .ofField f (Encounter.joined (es.filter (Encounter.hasKey m.key))) ∧
      n = .ofField f (Encounter.joined (es.filter (Encounter.hasKey m.key)).eraseDups))
    c.fields d.fields
  spreads : c.spreads = d.spreads

theorem Collected.Sums.agreesUpToRepeats {c d : Collected} {es : List Encounter} (h : c.Sums es)
    (h' : d.Sums es.eraseDups) : c.AgreesUpToRepeats d es := by
  have hkeys : c.fields.map MergedField.key = d.fields.map MergedField.key := by
    rw [h.keys, h'.keys, eraseDups_filterMap_eraseDups]
  refine ⟨h.keys, ?_, ?_⟩
  · have hsame : List.Forall₂ (fun m n => m.key = n.key) c.fields d.fields := by
      rw [← List.forall₂_eq_eq_eq, List.forall₂_map_left_iff, List.forall₂_map_right_iff] at hkeys
      exact hkeys
    rw [List.forall₂_iff_zip] at hsame ⊢
    refine ⟨hsame.1, ?_⟩
    intro m n hmn
    have hkey := hsame.2 hmn
    obtain ⟨hm, hn⟩ := List.of_mem_zip hmn
    obtain ⟨p, f, set?, hhead, heq⟩ := Encounter.eq_of_merged? (h.fields m hm)
    have hmerged := h'.fields n hn
    rw [← hkey, ← eraseDups_filter] at hmerged
    obtain ⟨q, g, set?', hhead', heq'⟩ := Encounter.eq_of_merged? hmerged
    rw [head?_eraseDups, hhead] at hhead'
    cases hhead'
    exact ⟨hkey, p, f, set?, hhead, heq, heq'⟩
  · rw [h.spreads, h'.spreads, eraseDups_filterMap_eraseDups]

/-- **Refusing only open fragments yields what opening each fragment once does.**  Either both
collectors fail with the same error, or they agree up to repeats; and then no field that can be
reached is lost, and neither are the selections made on its value. -/
theorem Collector.collect_agrees_collectOnce (fragments : FragmentRegistry) (set : SelectionSet)
    (object? : Option String) :
    let x : Collector := { fragments, merges := true }
    match x.collect set object?, x.collectOnce set object? with
    | .error e, .error e' => e = e'
    | .ok c, .ok d =>
      c.AgreesUpToRepeats d (x.encounters set object?) ∧
        ∀ f set?, x.Yields object? set.selections f set? →
          ∃ m ∈ c.fields, m.key = f.key ∧ m.type = f.type ∧
            ∀ s ∈ set?, ∃ t, m.set? = some t ∧ s.selections <:+: t.selections
    | _, _ => False := by
  intro x
  have hcollect := x.collect_eq_foldlM set object?
  have honce := x.collectOnce_eq_foldlM set object?
  rw [encountersOnce_eq_eraseDups rfl] at honce
  have herror : ∀ e, x.collectOnce set object? = .error e ↔ x.collect set object? = .error e := by
    intro e
    rw [hcollect, honce, Collected.foldlM_eraseDups_eq_error_iff]
  cases hc : x.collect set object? with
  | error e =>
    rw [(herror e).2 hc]
  | ok c =>
    cases hd : x.collectOnce set object? with
    | error e => cases hc.symm.trans ((herror e).1 hd)
    | ok d =>
      have hsums := sums_of_collect hc
      refine ⟨hsums.agreesUpToRepeats (Collected.sums_of_foldlM (honce ▸ hd)), ?_⟩
      intro f set? hyields
      obtain ⟨p, hp⟩ := exists_field_of_yields rfl hyields
      obtain ⟨m, hm, hkey, htype⟩ := MergedField.exists_of_typeAt?_eq_some (hsums.types p f set? hp)
      refine ⟨m, hm, hkey, htype, ?_⟩
      intro s hs
      have hmem : .field p f set? ∈ (x.encounters set object?).filter (Encounter.hasKey m.key) := by
        rw [List.mem_filter]
        exact ⟨hp, by simp [Encounter.hasKey, hkey]⟩
      obtain ⟨t, ht, hinfix⟩ := Encounter.exists_joined_of_mem hmem (by simpa using hs)
      exact ⟨t, (Encounter.set?_of_merged? (hsums.fields m hm)).trans ht, hinfix⟩

end ResponseTypes
