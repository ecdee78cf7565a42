import ResponseTypes.Proofs.Collection.Covering
import ResponseTypes.Proofs.Collection.Nesting
import ResponseTypes.Proofs.Emission.Selections
import ResponseTypes.Proofs.Schema.Resolving
import ResponseTypes.Proofs.Selection.Subterms
import ResponseTypes.Proofs.Variant.Reaching

/-!
# When declarations of selection sets fail

Where all types are resolved and all fragments are registered, the declaration of a selection set
fails for one reason only: in the set, or in selections that lie below it, two fields of one key
have different types.  The number of levels that are allowed for does not matter, unless fields nest
that deep.

## What is here

* `EmissionContext.exists_of_run_eq_error` — why a declaration fails.
* `EmissionContext.not_conflicts_of_run_eq_ok` — a declaration that succeeds.
* `EmissionContext.not_descends_nestingBound` — the levels that are allowed for.
-/

set_option autoImplicit false

namespace ResponseTypes

/-- One descends through a collected field into the selections made on its value. -/
theorem Collector.descends_of_collect {x : Collector} {set : SelectionSet}
    {object? : Option String} {c : Collected} (hc : x.collect set object? = .ok c)
    {m : MergedField} (hm : m ∈ c.fields) {below : SelectionSet} (hset : m.set? = some below)
    {n : Nat} (h : x.Descends [] below.selections n) : x.Descends [] set.selections (n + 1) := by
  obtain ⟨first, rest, rfl, hyields⟩ := exists_parts_of_mem hc hm hset
  obtain ⟨part, hpart, hpartial⟩ := h.of_flatMap (List.cons_ne_nil first rest)
  obtain ⟨f, hf⟩ := hyields part hpart
  exact hf.descends rfl hpartial

namespace EmissionContext

variable {x : EmissionContext} {declare : String → SelectionSet → Emit Declaration}

/-! ## One level -/

/-- A field fails because its type cannot be expressed, or because the selections on it cannot be
declared. -/
theorem exists_of_run_propertyType_eq_error {table : NestedTable} {m : MergedField}
    {s t : Session} {err : GenerationError}
    (h : (x.propertyType declare table m).run s = (.error err, t)) :
    (∃ naming, x.options.typeExpr naming m.type = .error err) ∨
      ∃ name set r r', m.set? = some set ∧ (declare name set).run r = (.error err, r') := by
  have htype : ∀ {naming : CompositeNaming} {r r' : Session},
      (Emit.typeExpr x.options naming m.type).run r = (.error err, r') →
        ∃ naming, x.options.typeExpr naming m.type = .error err := by
    intro naming r r' hrun
    rw [Emit.run_typeExpr] at hrun
    split at hrun
    · cases hrun
    · rename_i e he
      cases hrun
      exact ⟨naming, he⟩
  rw [propertyType] at h
  split at h
  · cases h
  · rename_i set hnarrowed hset hcomposite
    split at h
    · rcases Emit.run_bind_eq_error_iff.1 h with h | ⟨type, r, -, h⟩
      · exact .inl (htype h)
      · cases h
    · rcases Emit.run_bind_eq_error_iff.1 h with h | ⟨component, r, -, h⟩
      · cases h
      rcases Emit.run_bind_eq_error_iff.1 h with h | ⟨scope, r', -, h⟩
      · cases h
      rcases Emit.run_bind_eq_error_iff.1 h with h | ⟨d, r'', -, h⟩
      · obtain ⟨hresult, -⟩ := Prod.mk.inj h
        exact .inr ⟨_, set, _, _, hset, Prod.ext hresult rfl⟩
      rcases Emit.run_bind_eq_error_iff.1 h with h | ⟨type, r'', -, h⟩
      · exact .inl (htype h)
      · cases h
  · rcases Emit.run_bind_eq_error_iff.1 h with h | ⟨scope, r, -, h⟩
    · cases h
    rcases Emit.run_bind_eq_error_iff.1 h with h | ⟨type, r', -, h⟩
    · exact .inl (htype h)
    · cases h

theorem exists_of_run_properties_eq_error {table : NestedTable} {ms : List MergedField}
    {s t : Session} {err : GenerationError}
    (h : (x.properties declare table ms).run s = (.error err, t)) :
    ∃ m ∈ ms, ∃ table r r', (x.propertyType declare table m).run r = (.error err, r') := by
  induction ms generalizing table s with
  | nil => cases h
  | cons m ms ih =>
    rw [properties] at h
    rcases Emit.run_bind_eq_error_iff.1 h with h | ⟨⟨type, table'⟩, r, -, h⟩
    · exact ⟨m, List.mem_cons_self, table, s, t, h⟩
    rcases Emit.run_bind_eq_error_iff.1 h with h | ⟨⟨ps, table''⟩, r', -, h⟩
    · obtain ⟨n, hn, hfails⟩ := ih h
      exact ⟨n, List.mem_cons_of_mem _ hn, hfails⟩
    · cases h

theorem exists_of_run_shapes_eq_error {table : NestedTable} {vs : List Variant}
    {s t : Session} {err : GenerationError}
    (h : (x.shapes declare table vs).run s = (.error err, t)) :
    ∃ v ∈ vs, ∃ m ∈ v.fields, ∃ table r r',
      (x.propertyType declare table m).run r = (.error err, r') := by
  induction vs generalizing table s with
  | nil => cases h
  | cons v vs ih =>
    rw [shapes] at h
    rcases Emit.run_bind_eq_error_iff.1 h with h | ⟨⟨ps, table'⟩, r, -, h⟩
    · exact ⟨v, List.mem_cons_self, exists_of_run_properties_eq_error h⟩
    rcases Emit.run_bind_eq_error_iff.1 h with h | ⟨⟨shapes, table''⟩, r', -, h⟩
    · obtain ⟨w, hw, hfails⟩ := ih h
      exact ⟨w, List.mem_cons_of_mem _ hw, hfails⟩
    · cases h

/-! ## All levels -/

/-- **Why a declaration fails**: below its selection set two fields of one key have different types,
or fields nest deeper than is allowed for. -/
theorem exists_of_run_eq_error (hfragments : ∀ g ∈ x.fragments,
      x.collector.Covers (fun f _ => f.type.WellWrapped) g.set.selections)
    (levels : Nat) {name : String} {description? : Option String} {set : SelectionSet}
    (hset : x.collector.Covers (fun f _ => f.type.WellWrapped) set.selections) {s t : Session}
    {err : GenerationError}
    (h : (x.declarationWithin levels name description? set).run s = (.error err, t)) :
    (∃ key first second, x.collector.Conflicts set key first second ∧
        err = .fieldMergeConflict key first second) ∨
      x.collector.Descends [] set.selections levels ∧ ∃ name, err = .endlessNesting name := by
  induction levels generalizing name description? set s t with
  | zero =>
    cases h
    exact .inr ⟨.stop, name, rfl⟩
  | succ levels ih =>
    rw [declarationWithin] at h
    rcases Emit.run_bind_eq_error_iff.1 h with h | ⟨vs, r, hvariants, h⟩
    · rw [Emit.run_ofExcept] at h
      obtain ⟨object?, hobject, hc⟩ := Collector.exists_collect_eq_error (Prod.mk.inj h).1
      obtain ⟨key, first, second, hconflicts, rfl⟩ := Collector.conflictsAt_of_collect_eq_error
        hset.holds (fun g hg => (hfragments g hg).holds) hc
      exact .inl ⟨key, first, second, ⟨set, .refl, object?, hobject, hconflicts⟩, rfl⟩
    rw [Emit.run_ofExcept] at hvariants
    obtain ⟨hok, rfl⟩ := Prod.mk.inj hvariants
    rcases Emit.run_bind_eq_error_iff.1 h with h | ⟨⟨shapes, table⟩, r', -, h⟩
    · obtain ⟨v, hv, m, hm, table, q, q', hfails⟩ := exists_of_run_shapes_eq_error h
      obtain ⟨object?, hobject, c, hc, n, hn, hshape⟩ :=
        Collector.exists_shape_of_mem_variants hok hv hm
      obtain ⟨-, htype, hsame⟩ := MergedField.shape_eq_iff.1 hshape
      obtain ⟨⟨f, set?, hwrapped, hftype⟩, hbelow⟩ :=
        Collector.Covers.of_collect hfragments hset hc hn
      rcases exists_of_run_propertyType_eq_error hfails with
        ⟨naming, herr⟩ | ⟨name', below, p, p', hmset, hdeclare⟩
      · -- The type is resolved, so there is an expression for it.
        obtain ⟨e, he⟩ := x.options.exists_typeExpr naming (hftype ▸ hwrapped)
        rw [htype] at he
        cases herr.symm.trans he
      · have hnset : n.set? = some below := hsame.trans hmset
        rcases ih (hbelow below hnset) hdeclare with
          ⟨key, first, second, hconflicts, rfl⟩ | ⟨hdescends, hendless⟩
        · exact .inl ⟨key, first, second,
            hconflicts.of_reaches (.field .refl hobject hc hn hnset), rfl⟩
        · exact .inr ⟨Collector.descends_of_collect hc hn hnset hdescends, hendless⟩
    · cases h

/-- In all fragments together no more fields nest than there are selections. -/
theorem depthOutside_le_fragmentSize (x : EmissionContext) :
    Collector.depthOutside [] x.fragments ≤ x.fragmentSize := by
  rw [fragmentSize, fragmentSelections]
  induction x.fragments with
  | nil => exact Nat.le_refl 0
  | cons f r ih =>
    have hdepth := f.set.depth_le_length_subterms
    rw [Collector.depthOutside, if_neg List.not_mem_nil, List.flatMap_cons, List.length_append]
    omega

/-- Fields do not nest as deep as levels are allowed for, unless a fragment comes back to itself
through a field. -/
theorem not_descends_nestingBound
    (hfinite : x.options.mergesFragments = true → ∀ name, ¬ x.fragments.NestsInItself name)
    (set : SelectionSet) : ¬ x.collector.Descends [] set.selections (x.nestingBound set + 1) := by
  intro h
  have hle := h.le hfinite
  have hsize : Collector.depthOutside [] x.collector.fragments ≤ x.fragmentSize :=
    x.depthOutside_le_fragmentSize
  have hbound : x.fragmentSize ≤ x.fragmentSize * numLists x.fragmentSize x.fragmentSize :=
    Nat.le_mul_of_pos_right _ (numLists_pos _ _)
  rw [nestingBound, SelectionSet.depth_eq] at hle
  omega

end EmissionContext
end ResponseTypes
