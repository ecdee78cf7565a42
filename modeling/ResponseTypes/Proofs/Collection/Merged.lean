import ResponseTypes.Proofs.Collection.Encounters

/-!
# What has been merged

Merging goes one encounter at a time and keeps a list of fields up to date.  What it ends with can
be read off all encounters at once: there is a field for each response key, in the order in which
the keys first come up, and it is made of the encounters of its key alone.  The first of them
decides everything but the selections, and all of them contribute their selections, in order.

## What is here

* `Encounter.merged?`, `Encounter.joined` — the field that some encounters of one key make.
* `Collected.Sums` — what has been collected is made of some encounters; `Collected.Sums.meet` says
  what one more does, and `Collected.sums_of_foldlM` what all do.
-/

set_option autoImplicit false

namespace ResponseTypes

/-! ## One key -/

namespace Encounter

/-- The field that encounters of one key make. -/
def merged? : List Encounter → Option MergedField
  | .field _ f set? :: es => some (es.foldl (fun m e => m.absorb e.set?) (.ofField f set?))
  | _ => none

/-- The selections that encounters contribute, one after the other. -/
def joined (es : List Encounter) : Option SelectionSet :=
  match es.filterMap Encounter.set? with
  | [] => none
  | s :: sets => some { s with selections := (s :: sets).flatMap SelectionSet.selections }

theorem merged?_concat (es : List Encounter) (e : Encounter) (hes : es ≠ []) :
    merged? (es ++ [e]) = (merged? es).map fun m => m.absorb e.set? := by
  cases es with
  | nil => exact absurd rfl hes
  | cons e' es =>
    cases e' with
    | field p f set? => simp [merged?]
    | recorded p name => rfl
    | missing p name => rfl

/-- Absorbing selections changes nothing else. -/
theorem exists_foldl_absorb_eq (es : List Encounter) (m : MergedField) :
    ∃ set?, es.foldl (fun m e => m.absorb e.set?) m = { m with set? } := by
  induction es generalizing m with
  | nil => exact ⟨m.set?, rfl⟩
  | cons e es ih =>
    obtain ⟨set?, h⟩ := ih (m.absorb e.set?)
    refine ⟨set?, ?_⟩
    rw [List.foldl_cons, h]
    simp only [MergedField.absorb_key, MergedField.absorb_name, MergedField.absorb_type,
      MergedField.absorb_description?, MergedField.absorb_literals?]

/-- What absorbs the selections of some encounters has the selections it had, and then theirs. -/
theorem set?_foldl_absorb (es : List Encounter) (m : MergedField) :
    (es.foldl (fun m e => m.absorb e.set?) m).set?
      = match m.set?.toList ++ es.filterMap Encounter.set? with
        | [] => none
        | s :: sets =>
          some { s with selections := (s :: sets).flatMap SelectionSet.selections } := by
  induction es generalizing m with
  | nil =>
    cases h : m.set? with
    | none => exact h
    | some s =>
      cases s
      simpa using h
  | cons e es ih =>
    rw [List.foldl_cons, ih, List.filterMap_cons]
    cases hm : m.set? <;> cases he : e.set? <;>
      simp [MergedField.absorb, hm, SelectionSet.append]

/-- **The field of some encounters**: all but its selections it has from the first of them. -/
theorem eq_of_merged? {es : List Encounter} {m : MergedField} (h : merged? es = some m) :
    ∃ p f set?, es.head? = some (.field p f set?) ∧ m = MergedField.ofField f (joined es) := by
  cases es with
  | nil => cases h
  | cons e es =>
    cases e with
    | field p f set? =>
      obtain rfl := Option.some.inj h
      refine ⟨p, f, set?, rfl, ?_⟩
      obtain ⟨sets?, heq⟩ := exists_foldl_absorb_eq es (.ofField f set?)
      have hsets := set?_foldl_absorb es (.ofField f set?)
      rw [heq] at hsets ⊢
      simp only [MergedField.ofField] at hsets ⊢
      rw [hsets, joined, List.filterMap_cons]
      cases set? <;> rfl
    | recorded p name => cases h
    | missing p name => cases h

theorem set?_of_merged? {es : List Encounter} {m : MergedField} (h : merged? es = some m) :
    m.set? = joined es := by
  obtain ⟨p, f, set?, -, heq⟩ := eq_of_merged? h
  rw [heq]
  rfl

end Encounter

/-! ## All keys -/

namespace Collected

/-- What has been collected is made of some encounters. -/
structure Sums (c : Collected) (es : List Encounter) : Prop where
  keys : c.fields.map MergedField.key = (es.filterMap Encounter.key?).eraseDups
  spreads : c.spreads = (es.filterMap Encounter.recorded?).eraseDups
  fields : ∀ m ∈ c.fields, Encounter.merged? (es.filter (Encounter.hasKey m.key)) = some m
  types : ∀ p f set?, Encounter.field p f set? ∈ es →
    MergedField.typeAt? c.fields f.key = some f.type
  found : ∀ p name, Encounter.missing p name ∉ es

namespace Sums

variable {c : Collected} {es : List Encounter}

theorem nil : Sums {} [] where
  keys := rfl
  spreads := rfl
  fields := by simp
  types := by simp
  found := by simp

theorem nodup_keys (h : Sums c es) : (c.fields.map MergedField.key).Nodup := by
  rw [h.keys]
  exact nodup_eraseDups _

theorem nodup_spreads (h : Sums c es) : c.spreads.Nodup := by
  rw [h.spreads]
  exact nodup_eraseDups _

theorem mem_keys (h : Sums c es) (key : String) :
    (∃ m ∈ c.fields, m.key = key) ↔ ∃ e ∈ es, e.key? = some key := by
  have hkeys : key ∈ c.fields.map MergedField.key ↔ key ∈ es.filterMap Encounter.key? := by
    rw [h.keys, List.mem_eraseDups]
  rw [List.mem_map, List.mem_filterMap] at hkeys
  exact hkeys

/-- The fields are those that the encounters of each key make. -/
theorem map_some_fields (h : Sums c es) : c.fields.map some
    = (es.filterMap Encounter.key?).eraseDups.map
        fun key => Encounter.merged? (es.filter (Encounter.hasKey key)) := by
  rw [← h.keys, List.map_map]
  exact List.map_congr_left fun m hm => (h.fields m hm).symm

theorem literals?_eq_none (h : Sums c es) : ∀ m ∈ c.fields, m.literals? = none := by
  intro m hm
  obtain ⟨p, f, set?, -, heq⟩ := Encounter.eq_of_merged? (h.fields m hm)
  rw [heq]
  rfl

/-- A recorded fragment changes nothing about the fields. -/
theorem record (h : Sums c es) (p : Place) (name : String) :
    Sums (c.record name) (es ++ [.recorded p name]) := by
  have hfields : (c.record name).fields = c.fields := by
    rw [Collected.record]
    split <;> rfl
  refine ⟨?_, ?_, ?_, ?_, by simpa using h.found⟩
  · rw [hfields, h.keys]
    simp [List.filterMap_cons]
  · have hlist : (es ++ [Encounter.recorded p name]).filterMap Encounter.recorded?
        = es.filterMap Encounter.recorded? ++ [name] := by
      simp
    rw [hlist, eraseDups_concat, ← h.spreads, Collected.record]
    have hmem : c.spreads.contains name = true ↔ name ∈ es.filterMap Encounter.recorded? := by
      rw [List.contains_iff_mem, h.spreads, List.mem_eraseDups]
    by_cases hc : c.spreads.contains name = true
    · rw [if_pos hc, if_pos (hmem.1 hc)]
    · rw [if_neg hc, if_neg fun hm => hc (hmem.2 hm)]
  · intro m hm
    rw [hfields] at hm
    rw [← h.fields m hm]
    simp [Encounter.hasKey]
  · intro q f set? hmem
    rw [hfields]
    simp only [List.mem_append, List.mem_singleton, reduceCtorEq, or_false] at hmem
    exact h.types q f set? hmem

section Add

variable {f : Field} {set? : Option SelectionSet} {fields : List MergedField}

theorem keys_add (h : Sums c es) (hadd : MergedField.add f set? c.fields = .ok fields)
    (p : Place) : fields.map MergedField.key
      = ((es ++ [Encounter.field p f set?]).filterMap Encounter.key?).eraseDups := by
  have hlist : (es ++ [Encounter.field p f set?]).filterMap Encounter.key?
      = es.filterMap Encounter.key? ++ [f.key] := by
    simp
  have hmem : f.key ∈ es.filterMap Encounter.key? ↔ ∃ m ∈ c.fields, m.key = f.key := by
    rw [h.mem_keys, List.mem_filterMap]
  rw [hlist, eraseDups_concat, ← h.keys]
  rcases MergedField.add_cases hadd with ⟨hne, rfl⟩ | ⟨l, m, r, hc, -, hm, -, rfl⟩
  · rw [if_neg]
    · rw [List.map_append]
      rfl
    · rw [hmem]
      rintro ⟨m, hmc, hm⟩
      exact hne m hmc hm
  · rw [if_pos (hmem.2 ⟨m, by simp [hc], hm⟩), hc]
    simp

/-- A selected field is the first of its key, or adds its selections to those of its key. -/
theorem fields_add (h : Sums c es) (hadd : MergedField.add f set? c.fields = .ok fields)
    (p : Place) : ∀ n ∈ fields,
      Encounter.merged? ((es ++ [Encounter.field p f set?]).filter (Encounter.hasKey n.key))
        = some n := by
  have hother : ∀ key, key ≠ f.key →
      (es ++ [Encounter.field p f set?]).filter (Encounter.hasKey key)
        = es.filter (Encounter.hasKey key) := by
    intro key hkey
    simp [Encounter.hasKey, hkey.symm]
  have hown : (es ++ [Encounter.field p f set?]).filter (Encounter.hasKey f.key)
      = es.filter (Encounter.hasKey f.key) ++ [.field p f set?] := by
    simp [Encounter.hasKey]
  rcases MergedField.add_cases hadd with ⟨hne, rfl⟩ | ⟨l, m, r, hc, hl, hm, -, rfl⟩
  · intro n hn
    rcases List.mem_append.1 hn with hn | hn
    · rw [hother _ (hne n hn)]
      exact h.fields n hn
    · obtain rfl := List.mem_singleton.1 hn
      have hempty : es.filter (Encounter.hasKey f.key) = [] := by
        rw [List.filter_eq_nil_iff]
        intro e he hkey
        obtain ⟨m, hmc, hm⟩ :=
          (h.mem_keys f.key).2 ⟨e, he, by simpa [Encounter.hasKey] using hkey⟩
        exact hne m hmc hm
      change Encounter.merged? (List.filter (Encounter.hasKey f.key) _) = _
      rw [hown, hempty]
      rfl
  · -- The keys differ, so the fields behind the one that absorbs have other keys.
    have hr : ∀ n ∈ r, n.key ≠ f.key := by
      have hnodup := h.nodup_keys
      rw [hc, List.map_append, List.map_cons] at hnodup
      intro n hn hkey
      have hnot := (List.nodup_cons.1 (List.nodup_append.1 hnodup).2.1).1
      exact hnot (by rw [hm, ← hkey]; exact List.mem_map_of_mem hn)
    intro n hn
    have hcases : n ∈ l ∨ n = m.absorb set? ∨ n ∈ r := by simpa using hn
    rcases hcases with hn | rfl | hn
    · rw [hother _ (hl n hn)]
      exact h.fields n (by simp [hc, hn])
    · have hmerged := h.fields m (by simp [hc])
      rw [hm] at hmerged
      rw [MergedField.absorb_key, hm, hown, Encounter.merged?_concat, hmerged]
      · rfl
      · intro hnil
        rw [hnil] at hmerged
        cases hmerged
    · rw [hother _ (hr n hn)]
      exact h.fields n (by simp [hc, hn])

/-- The type under a key stays the type of every field of the key. -/
theorem types_add (h : Sums c es) (hadd : MergedField.add f set? c.fields = .ok fields)
    (p : Place) : ∀ q g t, .field q g t ∈ es ++ [.field p f set?] →
      MergedField.typeAt? fields g.key = some g.type := by
  intro q g t hg
  rw [MergedField.typeAt?_add hadd]
  rcases List.mem_append.1 hg with hg | hg
  · have htype := h.types q g t hg
    split
    · rename_i hkey
      rw [← hkey] at htype
      rcases (MergedField.add_eq_ok_iff f set? c.fields).1 ⟨fields, hadd⟩ with hnone | hsome
      · cases hnone.symm.trans htype
      · exact hsome.symm.trans htype
    · exact htype
  · have heq : g = f := by simp_all
    rw [heq, if_pos rfl]

theorem add (h : Sums c es) (hadd : MergedField.add f set? c.fields = .ok fields) (p : Place) :
    Sums { c with fields } (es ++ [.field p f set?]) where
  keys := h.keys_add hadd p
  spreads := by
    rw [List.filterMap_append]
    simpa [List.filterMap_cons] using h.spreads
  fields := h.fields_add hadd p
  types := h.types_add hadd p
  found := by simpa using h.found

end Add

/-- **One more encounter.** -/
theorem meet (h : Sums c es) {e : Encounter} {d : Collected} (hmeet : c.meet e = .ok d) :
    Sums d (es ++ [e]) := by
  cases e with
  | field p f set? =>
    rw [Collected.meet] at hmeet
    cases hadd : MergedField.add f set? c.fields with
    | error err =>
      rw [hadd] at hmeet
      cases hmeet
    | ok fields =>
      rw [hadd] at hmeet
      cases hmeet
      exact h.add hadd p
  | recorded p name =>
    cases hmeet
    exact h.record p name
  | missing p name => cases hmeet

end Sums

/-- **What merging ends with** is made of all the encounters. -/
theorem sums_of_foldlM {es : List Encounter} {c : Collected}
    (h : es.foldlM meet {} = .ok c) : Sums c es := by
  induction es using List.reverseRecOn generalizing c with
  | nil =>
    cases h
    exact Sums.nil
  | append_singleton es e ih =>
    rw [List.foldlM_append] at h
    obtain ⟨d, hes, h⟩ := bind_eq_ok_iff.1 h
    rw [List.foldlM_cons] at h
    obtain ⟨d', hmeet, h⟩ := bind_eq_ok_iff.1 h
    cases h
    exact (ih hes).meet hmeet

end Collected

theorem Collector.sums_of_collect {x : Collector} {set : SelectionSet} {object? : Option String}
    {c : Collected} (h : x.collect set object? = .ok c) :
    c.Sums (x.encounters set object?) := by
  rw [collect_eq_foldlM] at h
  exact Collected.sums_of_foldlM h

end ResponseTypes
