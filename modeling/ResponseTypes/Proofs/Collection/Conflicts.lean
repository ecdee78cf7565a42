import ResponseTypes.Proofs.Collection.Once
import ResponseTypes.Proofs.Selection.Uses

/-!
# When collecting fails

Collecting fails for two reasons.  A fragment that is used may be missing; or two fields of one
response key have different types.  The second reason does not depend on the order in which fields
are come across, nor on how often: if two such fields can be reached at all, collecting fails, and
it fails for no other two.  What does depend on the order is which two are reported: merging stops
at the first field that differs from the first one of its key.

## What is here

* `Encounter.EarliestConflict` and `Collected.earliestConflict_of_foldlM` — where merging stops.
* `Collector.ConflictsAt` — two fields that can be reached have one key and different types.
* `Collected.foldlM_eq_error_cases`, `Collector.exists_field_of_mem_yields` — failures come from
  what is come across, and everything that can be reached is come across;
  `Collector.exists_mem_fields_iff` says what is collected.
* `Collector.exists_get?_of_mem_encounters` — the fragments that are come across by name.
* `Collector.conflictsAt_of_collect_eq_error`, `Collector.not_conflictsAt_of_collect_eq_ok`.
-/

set_option autoImplicit false

namespace ResponseTypes

/-- The fragment that an encounter is about by name. -/
def Encounter.fragment? : Encounter → Option String
  | .field _ _ _ => none
  | .recorded _ name => some name
  | .missing _ name => some name

/-! ## The earliest conflict -/

namespace Encounter

/-- The type of the first field of a key. -/
def firstType? (es : List Encounter) (key : String) : Option ResolvedType :=
  es.findSome? fun
    | .field _ f _ => if f.key = key then some f.type else none
    | _ => none

/-- An error names the earliest field whose type differs from that of the first field of its key:
the key, the type of the first field, and its own type. -/
def EarliestConflict (es : List Encounter) (err : GenerationError) : Prop :=
  ∃ before p f set? after first, es = before ++ .field p f set? :: after ∧
    firstType? es f.key = some first ∧ first ≠ f.type ∧
    (∀ q g set?', .field q g set?' ∈ before → firstType? es g.key = some g.type) ∧
    err = .fieldMergeConflict f.key first f.type

/-- The first field of a key stays the first one if more is come across. -/
theorem firstType?_append_of_eq_some {es : List Encounter} {key : String} {t : ResolvedType}
    (h : firstType? es key = some t) (fs : List Encounter) :
    firstType? (es ++ fs) key = some t := by
  rw [firstType?] at h ⊢
  rw [List.findSome?_append, h]
  rfl

theorem exists_of_firstType?_eq_some {es : List Encounter} {key : String} {t : ResolvedType}
    (h : firstType? es key = some t) :
    ∃ p f set?, .field p f set? ∈ es ∧ f.key = key ∧ f.type = t := by
  obtain ⟨e, he, heq⟩ := List.exists_of_findSome?_eq_some h
  cases e with
  | field p f set? =>
    obtain ⟨hkey, htype⟩ : f.key = key ∧ f.type = t := by simpa using heq
    exact ⟨p, f, set?, he, hkey, htype⟩
  | recorded p name => cases heq
  | missing p name => cases heq

theorem exists_firstType?_of_mem {es : List Encounter} {p : Place} {f : Field}
    {set? : Option SelectionSet} (h : .field p f set? ∈ es) :
    ∃ t, firstType? es f.key = some t := by
  refine Option.isSome_iff_exists.1 ?_
  rw [firstType?, List.findSome?_isSome_iff]
  exact ⟨_, h, by simp⟩

/-- What follows the earliest conflict does not matter. -/
theorem EarliestConflict.append {es : List Encounter} {err : GenerationError}
    (h : EarliestConflict es err) (fs : List Encounter) : EarliestConflict (es ++ fs) err := by
  obtain ⟨before, p, f, set?, after, first, rfl, hfirst, hne, hbefore, rfl⟩ := h
  refine ⟨before, p, f, set?, after ++ fs, first, by simp,
    firstType?_append_of_eq_some hfirst fs, hne, ?_, rfl⟩
  intro q g set?' hg
  exact firstType?_append_of_eq_some (hbefore q g set?' hg) fs

end Encounter

namespace Collected

/-- What has been merged has the type of the first field under each key. -/
theorem Sums.typeAt?_eq_firstType? {c : Collected} {es : List Encounter} (h : c.Sums es)
    (key : String) : MergedField.typeAt? c.fields key = Encounter.firstType? es key := by
  cases hfirst : Encounter.firstType? es key with
  | some t =>
    obtain ⟨p, f, set?, hmem, rfl, rfl⟩ := Encounter.exists_of_firstType?_eq_some hfirst
    exact h.types p f set? hmem
  | none =>
    cases htype : MergedField.typeAt? c.fields key with
    | none => rfl
    | some t =>
      obtain ⟨m, hm, rfl, -⟩ := MergedField.exists_of_typeAt?_eq_some htype
      obtain ⟨e, he, hkey⟩ := (h.mem_keys m.key).1 ⟨m, hm, rfl⟩
      cases e with
      | field p f set? =>
        obtain ⟨t', ht'⟩ := Encounter.exists_firstType?_of_mem he
        rw [Option.some.inj hkey, hfirst] at ht'
        cases ht'
      | recorded p name => cases hkey
      | missing p name => cases hkey

/-- One field cannot be merged: it differs from the first one of its key. -/
theorem Sums.conflict_of_meet {c : Collected} {es : List Encounter} (h : c.Sums es) {e : Encounter}
    {err : GenerationError} (hmeet : c.meet e = .error err) :
    (∃ p f set? first, e = .field p f set? ∧ Encounter.firstType? es f.key = some first ∧
      first ≠ f.type ∧ err = .fieldMergeConflict f.key first f.type) ∨
    ∃ p name, e = .missing p name := by
  cases e with
  | field p f set? =>
    have hadd : MergedField.add f set? c.fields = .error err := by
      rw [Collected.meet] at hmeet
      cases hadd : MergedField.add f set? c.fields with
      | ok fields =>
        rw [hadd] at hmeet
        cases hmeet
      | error err' =>
        rw [hadd] at hmeet
        cases hmeet
        rfl
    obtain ⟨first, hfirst, hne, rfl⟩ := (MergedField.add_eq_error_iff _ _ _ _).1 hadd
    rw [h.typeAt?_eq_firstType?] at hfirst
    exact .inl ⟨p, f, set?, first, rfl, hfirst, hne, rfl⟩
  | recorded p name => cases hmeet
  | missing p name => exact .inr ⟨p, name, rfl⟩

/-- **Merging stops at the earliest conflict**, unless a fragment is missing. -/
theorem earliestConflict_of_foldlM {es : List Encounter} {err : GenerationError}
    (hfound : ∀ p name, .missing p name ∉ es) (h : es.foldlM meet {} = .error err) :
    Encounter.EarliestConflict es err := by
  -- The induction is on the encounters from the back: what has been merged before the last one is
  -- known as a whole.
  induction es using List.reverseRecOn with
  | nil => cases h
  | append_singleton es e ih =>
    rcases (foldlM_concat_eq_error_iff es e err).1 h with h | ⟨c, hc, hmeet⟩
    · have hbefore := ih (fun p name hmem => hfound p name (List.mem_append_left _ hmem)) h
      exact hbefore.append [e]
    · have hsums := sums_of_foldlM hc
      rcases hsums.conflict_of_meet hmeet with
        ⟨p, f, set?, first, rfl, hfirst, hne, rfl⟩ | ⟨p, name, rfl⟩
      · refine ⟨es, p, f, set?, [], first, rfl,
          Encounter.firstType?_append_of_eq_some hfirst _, hne, ?_, rfl⟩
        intro q g set?' hg
        have htype := hsums.types q g set?' hg
        rw [hsums.typeAt?_eq_firstType?] at htype
        exact Encounter.firstType?_append_of_eq_some htype _
      · exact absurd (List.mem_append_right _ List.mem_cons_self) (hfound p name)

/-- Merging fails because of a field whose key has come up with another type, or because of a
fragment that is missing. -/
theorem foldlM_eq_error_cases {es : List Encounter} {err : GenerationError}
    (h : es.foldlM meet {} = .error err) :
    (∃ p f set? q g set?', .field p f set? ∈ es ∧ .field q g set?' ∈ es ∧ f.key = g.key ∧
      f.type ≠ g.type ∧ err = .fieldMergeConflict g.key f.type g.type) ∨
    ∃ p name, .missing p name ∈ es := by
  by_cases hmissing : ∃ p name, .missing p name ∈ es
  · exact .inr hmissing
  · have hfound : ∀ p name, .missing p name ∉ es := fun p name hmem => hmissing ⟨p, name, hmem⟩
    obtain ⟨before, q, g, set?', after, first, rfl, hfirst, hne, -, rfl⟩ :=
      earliestConflict_of_foldlM hfound h
    obtain ⟨p, f, set?, hf, hkey, rfl⟩ := Encounter.exists_of_firstType?_eq_some hfirst
    exact .inl ⟨p, f, set?, q, g, set?', hf, by simp, hkey, hne, rfl⟩

end Collected

namespace Collector

variable {x : Collector} {object? : Option String}

/-! ## Fields that can be reached -/

theorem walk_append (opened : List String) (todo rest : List Placed) :
    x.walk object? opened (todo ++ rest)
      = x.walk object? opened todo ++ x.walk object? opened rest := by
  induction todo with
  | nil => rw [walk, List.nil_append, List.nil_append]
  | cons t todo ih =>
    obtain ⟨p, s⟩ := t
    cases s with
    | leaf f => rw [List.cons_append, walk, walk, ih, List.cons_append]
    | branch f set => rw [List.cons_append, walk, walk, ih, List.cons_append]
    | inline condition possible set =>
      rw [List.cons_append, walk, walk, ih]
      split
      · rw [List.append_assoc]
      · rfl
    | spread name condition possible =>
      rw [List.cons_append, walk, walk]
      split
      · split
        · split
          · exact ih
          · split
            · rw [ih, List.cons_append]
            · rw [ih, List.append_assoc]
        · rw [ih, List.cons_append]
      · exact ih

/-- What is come across in one selection is come across in the list. -/
theorem walk_singleton_subset {opened : List String} {todo : List Placed} {t : Placed}
    (h : t ∈ todo) : x.walk object? opened [t] ⊆ x.walk object? opened todo := by
  obtain ⟨l, r, rfl⟩ := List.append_of_mem h
  intro e he
  rw [List.append_cons, walk_append, walk_append]
  exact List.mem_append_left _ (List.mem_append_right _ he)

/-- Where uses of fragments are recorded, no fragment is opened, and a walk comes across every field
that can be reached. -/
theorem exists_field_of_yields_of_records (hrecords : x.merges = false) {l : List Selection}
    {f : Field} {set? : Option SelectionSet} (h : Yields x object? l f set?) {opened : List String}
    {todo : List Placed} (htodo : todo.map Placed.selection = l) :
    ∃ p, .field p f set? ∈ x.walk object? opened todo := by
  induction h generalizing todo with
  | leaf hmem =>
    rw [← htodo] at hmem
    obtain ⟨⟨p, s⟩, ht, rfl⟩ := List.mem_map.1 hmem
    exact ⟨p, walk_singleton_subset ht (by simp [walk])⟩
  | branch hmem =>
    rw [← htodo] at hmem
    obtain ⟨⟨p, s⟩, ht, rfl⟩ := List.mem_map.1 hmem
    exact ⟨p, walk_singleton_subset ht (by simp [walk])⟩
  | @inline l condition possible set f set? hmem happlies _ ih =>
    rw [← htodo] at hmem
    obtain ⟨⟨p, s⟩, ht, rfl⟩ := List.mem_map.1 hmem
    obtain ⟨q, hq⟩ := ih (Placed.map_selection_within p set)
    refine ⟨q, walk_singleton_subset ht ?_⟩
    rw [walk, if_pos happlies]
    exact List.mem_append_left _ hq
  | spread _ _ hmerges => cases hrecords.symm.trans hmerges

/-- **Everything that can be reached is come across**, whether uses of fragments are merged or
recorded. -/
theorem exists_field_of_mem_yields {set : SelectionSet} {f : Field} {set? : Option SelectionSet}
    (h : Yields x object? set.selections f set?) :
    ∃ p, .field p f set? ∈ x.encounters set object? := by
  cases hmerges : x.merges with
  | true => exact exists_field_of_yields hmerges h
  | false => exact exists_field_of_yields_of_records hmerges h (Placed.map_selection_within _ _)

/-- **What is collected** has the keys and types of the fields that are reached. -/
theorem exists_mem_fields_iff {x : Collector} {set : SelectionSet} {c : Collected}
    (hc : x.collect set object? = .ok c) {key : String} {type : ResolvedType} :
    (∃ m ∈ c.fields, m.key = key ∧ m.type = type) ↔
      ∃ f set?, x.Yields object? set.selections f set? ∧ f.key = key ∧ f.type = type := by
  have hsums := sums_of_collect hc
  constructor
  · rintro ⟨m, hm, rfl, rfl⟩
    obtain ⟨p, f, set?, hhead, heq⟩ := Encounter.eq_of_merged? (hsums.fields m hm)
    have hmem := (List.mem_filter.1 (List.mem_of_mem_head? hhead)).1
    refine ⟨f, set?, yields_of_mem_encounters hmem, ?_, ?_⟩
    · rw [heq]
      rfl
    · rw [heq]
      rfl
  · rintro ⟨f, set?, hyields, rfl, rfl⟩
    obtain ⟨p, hp⟩ := exists_field_of_mem_yields hyields
    exact MergedField.exists_of_typeAt?_eq_some (hsums.types p f set? hp)

/-! ## Fragments that are come across -/

/-- A fragment that is come across by name is used in the selections, or in a fragment; and if it is
missing, it is not registered. -/
theorem uses_of_mem_walk {opened : List String} {todo : List Placed} {e : Encounter} {name : String}
    (h : e ∈ x.walk object? opened todo) (hname : e.fragment? = some name) :
    (∀ p, e = .missing p name → x.fragments.get? name = none) ∧
      ∃ k, Selection.Uses (todo.map Placed.selection) k name ∨
        ∃ g ∈ x.fragments, Selection.Uses g.set.selections k name := by
  have hrest : ∀ {s : Selection} {rest : List Selection},
      ((∀ p, e = .missing p name → x.fragments.get? name = none) ∧ ∃ k, Selection.Uses rest k name ∨
        ∃ g ∈ x.fragments, Selection.Uses g.set.selections k name) →
      (∀ p, e = .missing p name → x.fragments.get? name = none) ∧
        ∃ k, Selection.Uses (s :: rest) k name ∨
          ∃ g ∈ x.fragments, Selection.Uses g.set.selections k name := by
    rintro s rest ⟨hmissing, k, huses | hfragment⟩
    · exact ⟨hmissing, k, .inl (huses.mono (List.subset_cons_self _ _))⟩
    · exact ⟨hmissing, k, .inr hfragment⟩
  induction opened, todo using walk.induct x object? with
  | case1 opened => simp [walk] at h
  | case2 opened q f rest ih =>
    rw [walk] at h
    rcases List.mem_cons.1 h with rfl | h
    · cases hname
    · exact hrest (ih h)
  | case3 opened q f set rest ih =>
    rw [walk] at h
    rcases List.mem_cons.1 h with rfl | h
    · cases hname
    · exact hrest (ih h)
  | case4 opened q condition possible set rest happlies ihset ih =>
    rw [walk, if_pos happlies] at h
    rcases List.mem_append.1 h with h | h
    · obtain ⟨hmissing, k, huses | hfragment⟩ := ihset h
      · rw [Placed.map_selection_within] at huses
        exact ⟨hmissing, k, .inl (.inline List.mem_cons_self huses)⟩
      · exact ⟨hmissing, k, .inr hfragment⟩
    · exact hrest (ih h)
  | case5 opened q condition possible set rest happlies ih =>
    rw [walk, if_neg happlies] at h
    exact hrest (ih h)
  | case6 opened q other condition possible rest happlies hmerges hopen ih =>
    rw [walk, if_pos happlies, if_pos hmerges, dif_pos hopen] at h
    exact hrest (ih h)
  | case7 opened q other condition possible rest happlies hmerges hopen hget ih =>
    rw [walk_missing _ _ _ happlies hmerges (by simpa using hopen) hget] at h
    rcases List.mem_cons.1 h with rfl | h
    · cases hname
      exact ⟨fun _ _ => hget, 0, .inl (.spread List.mem_cons_self)⟩
    · exact hrest (ih h)
  | case8 opened q other condition possible rest happlies hmerges hopen g hget ihbody ih =>
    rw [walk_opening _ _ _ happlies hmerges (by simpa using hopen) hget] at h
    rcases List.mem_append.1 h with h | h
    · obtain ⟨hmissing, k, huses | hfragment⟩ := ihbody h
      · rw [Placed.map_selection_within] at huses
        exact ⟨hmissing, k, .inr ⟨g, FragmentRegistry.mem_of_get? hget, huses⟩⟩
      · exact ⟨hmissing, k, .inr hfragment⟩
    · exact hrest (ih h)
  | case9 opened q other condition possible rest happlies hmerges ih =>
    rw [walk, if_pos happlies, if_neg hmerges] at h
    rcases List.mem_cons.1 h with rfl | h
    · cases hname
      exact ⟨by simp, 0, .inl (.spread List.mem_cons_self)⟩
    · exact hrest (ih h)
  | case10 opened q other condition possible rest happlies ih =>
    rw [walk, if_neg happlies] at h
    exact hrest (ih h)

/-- If all fragments that are used are registered, so are those that are come across. -/
theorem exists_get?_of_mem_encounters {set : SelectionSet}
    (hset : x.fragments.Holds set.selections)
    (hfragments : ∀ g ∈ x.fragments, x.fragments.Holds g.set.selections) {e : Encounter}
    {name : String} (h : e ∈ x.encounters set object?) (hname : e.fragment? = some name) :
    ∃ f, x.fragments.get? name = some f := by
  obtain ⟨-, k, huses | ⟨g, hg, huses⟩⟩ := uses_of_mem_walk h hname
  · rw [Placed.map_selection_within] at huses
    exact hset k name huses
  · exact hfragments g hg k name huses

/-- If all fragments that are used are registered, none is missing. -/
theorem missing_not_mem_encounters {set : SelectionSet} (hset : x.fragments.Holds set.selections)
    (hfragments : ∀ g ∈ x.fragments, x.fragments.Holds g.set.selections) (p : Place)
    (name : String) : .missing p name ∉ x.encounters set object? := by
  intro h
  obtain ⟨f, hget⟩ := exists_get?_of_mem_encounters hset hfragments h rfl
  cases ((uses_of_mem_walk h rfl).1 p rfl).symm.trans hget

/-! ## Conflicts -/

/-- For an object type, two fields that can be reached have one response key and different types. -/
def ConflictsAt (x : Collector) (set : SelectionSet) (object? : Option String) (key : String)
    (first second : ResolvedType) : Prop :=
  ∃ f g set? set?', x.Yields object? set.selections f set? ∧
    x.Yields object? set.selections g set?' ∧ f.key = key ∧ g.key = key ∧ f.type = first ∧
    g.type = second ∧ first ≠ second

/-- **Collecting fails because of two fields** that have one key and different types, and these it
names. -/
theorem conflictsAt_of_collect_eq_error {set : SelectionSet}
    (hset : x.fragments.Holds set.selections)
    (hfragments : ∀ g ∈ x.fragments, x.fragments.Holds g.set.selections) {err : GenerationError}
    (h : x.collect set object? = .error err) :
    ∃ key first second, x.ConflictsAt set object? key first second ∧
      err = .fieldMergeConflict key first second := by
  rw [collect_eq_foldlM] at h
  rcases Collected.foldlM_eq_error_cases h with
    ⟨p, f, set?, q, g, set?', hf, hg, hkey, hne, rfl⟩ | ⟨p, name, hmissing⟩
  · exact ⟨g.key, f.type, g.type,
      ⟨f, g, set?, set?', yields_of_mem_encounters hf, yields_of_mem_encounters hg, hkey, rfl, rfl,
        rfl, hne⟩, rfl⟩
  · exact absurd hmissing (missing_not_mem_encounters hset hfragments p name)

/-- **Where collecting succeeds, all fields of one key have one type.** -/
theorem not_conflictsAt_of_collect_eq_ok {set : SelectionSet} {c : Collected}
    (h : x.collect set object? = .ok c) (key : String) (first second : ResolvedType) :
    ¬ x.ConflictsAt set object? key first second := by
  rintro ⟨f, g, set?, set?', hf, hg, rfl, hkey, rfl, rfl, hne⟩
  have hsums := sums_of_collect h
  obtain ⟨p, hp⟩ := exists_field_of_mem_yields hf
  obtain ⟨q, hq⟩ := exists_field_of_mem_yields hg
  have htype := hsums.types q g set?' hq
  rw [hkey, hsums.types p f set? hp] at htype
  exact hne (Option.some.inj htype)

end Collector
end ResponseTypes
