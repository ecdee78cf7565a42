import ResponseTypes.Proofs.Emission.Failing

/-!
# The declaration of a selection set ends

To declare a selection set is to declare the selection sets that are made on the values of its
fields, and these are put together from all over the document: nothing gets smaller on the way.  But
every step goes through a field.  As fields do not nest without end, neither do declarations, unless
a fragment comes back to itself through a field.

The library keeps count of the levels all the same, so that its functions end for every input.
Where no fragment comes back to itself, the count is of no account: the declaration of a selection
set is what one gets from the declarations of the sets below it, and nothing else is.

## What is here

* `EmissionContext.CallsFor` — the selection sets that are declared to declare another one;
  `EmissionContext.declarationBy` — one level.
* `EmissionContext.acc_callsFor` — no way down goes on without end.
* `EmissionContext.selectionDeclaration_eq` and `EmissionContext.eq_selectionDeclaration` — the
  declaration of a selection set without any count of levels.
* `EmissionContext.not_isEndless_of_run` — it does not fail for want of levels.
-/

set_option autoImplicit false

namespace ResponseTypes

/-! ## Errors for want of levels -/

/-- At the root of an error is that declarations nest deeper than is allowed for. -/
def GenerationError.IsEndless (e : GenerationError) : Prop :=
  ∃ name, e.rootCause = .endlessNesting name

@[simp] theorem GenerationError.isEndless_inDeclaration (name : String) (e : GenerationError) :
    (GenerationError.inDeclaration name e).IsEndless ↔ e.IsEndless := by
  simp [IsEndless, rootCause]

theorem GenerationError.not_isEndless_schema (e : SchemaError) :
    ¬ (GenerationError.schema e).IsEndless := by
  simp [IsEndless, rootCause]

/-- No other field is met for want of levels. -/
theorem Collected.not_isEndless_of_meet {c : Collected} {e : Encounter} {err : GenerationError}
    (h : c.meet e = .error err) : ¬ err.IsEndless := by
  cases e with
  | field p f set? =>
    rw [meet] at h
    cases hadd : MergedField.add f set? c.fields with
    | ok fields =>
      rw [hadd] at h
      cases h
    | error err' =>
      rw [hadd] at h
      cases h
      obtain ⟨t, -, -, rfl⟩ := (MergedField.add_eq_error_iff f set? c.fields err).1 hadd
      simp [GenerationError.IsEndless, GenerationError.rootCause]
  | recorded p name => cases h
  | missing p name =>
    cases h
    exact GenerationError.not_isEndless_schema _

theorem Collector.not_isEndless_of_collect {x : Collector} {set : SelectionSet}
    {object? : Option String} {err : GenerationError} (h : x.collect set object? = .error err) :
    ¬ err.IsEndless := by
  rw [collect_eq_foldlM] at h
  generalize x.encounters set object? = es at h
  generalize ({} : Collected) = c at h
  induction es generalizing c with
  | nil => cases h
  | cons e es ih =>
    rw [List.foldlM_cons] at h
    cases hmeet : c.meet e with
    | ok d =>
      rw [hmeet] at h
      exact ih d h
    | error err' =>
      rw [hmeet] at h
      cases h
      exact Collected.not_isEndless_of_meet hmeet

theorem Options.not_isEndless_of_innerTypeExpr {o : Options} {naming : CompositeNaming}
    {t : ResolvedType} {err : GenerationError} (h : o.innerTypeExpr naming t = .error err) :
    ¬ err.IsEndless := by
  induction t using innerTypeExpr.induct with
  | case1 kind name => cases h
  | case2 t ih | case3 t ih =>
    rw [innerTypeExpr] at h
    refine ih ?_
    revert h
    cases o.innerTypeExpr naming _ <;> simp [Except.map]
  | case4 kind name => cases h
  | case5 t =>
    cases h
    simp [GenerationError.IsEndless, GenerationError.rootCause]

theorem Options.not_isEndless_of_typeExpr {o : Options} {naming : CompositeNaming}
    {t : ResolvedType} {err : GenerationError} (h : o.typeExpr naming t = .error err) :
    ¬ err.IsEndless := by
  cases t with
  | nonNull t => exact not_isEndless_of_innerTypeExpr h
  | named kind name => cases h
  | list t =>
    have hinner : o.innerTypeExpr naming (.list t) = .error err := by
      revert h
      change (o.innerTypeExpr naming (.list t)).map _ = _ → _
      cases o.innerTypeExpr naming (.list t) <;> simp [Except.map]
    exact not_isEndless_of_innerTypeExpr hinner

/-- After a failure nothing is done. -/
theorem Emit.throw_bind {α β : Type} (e : GenerationError) (f : α → Emit β) :
    (throw e : Emit α) >>= f = throw e := rfl

namespace EmissionContext

variable {x : EmissionContext}

/-! ## One level -/

/-- To declare one selection set is to declare another one: that of the selections on the value of a
field of one of its variants. -/
def CallsFor (x : EmissionContext) (set below : SelectionSet) : Prop :=
  ∃ vs, x.collector.variants set = .ok vs ∧ ∃ v ∈ vs, ∃ m ∈ v.fields, m.set? = some below

/-- The declaration of a selection set, given how those are declared that it calls for. -/
def declarationBy (x : EmissionContext) (declare : String → SelectionSet → Emit Declaration)
    (name : String) (description? : Option String) (set : SelectionSet) : Emit Declaration := do
  let variants ← Emit.ofExcept (x.collector.variants set)
  let (shapes, table) ← x.shapes declare [] variants
  return .build name description? (.ofShapes shapes) table.declarations

theorem declarationWithin_succ (levels : Nat) (name : String) (description? : Option String)
    (set : SelectionSet) :
    x.declarationWithin (levels + 1) name description? set
      = x.declarationBy (fun name below => x.declarationWithin levels name none below) name
          description? set := by
  rw [declarationWithin]
  rfl

section Congr

variable {declare declare' : String → SelectionSet → Emit Declaration}

theorem propertyType_congr (table : NestedTable) {m : MergedField}
    (h : ∀ below, m.set? = some below → ∀ name, declare name below = declare' name below) :
    x.propertyType declare table m = x.propertyType declare' table m := by
  rw [propertyType, propertyType]
  split
  · rfl
  · rename_i set _ hset _
    simp only [h set hset]
  · rfl

theorem properties_congr (table : NestedTable) {ms : List MergedField}
    (h : ∀ m ∈ ms, ∀ below, m.set? = some below → ∀ name,
      declare name below = declare' name below) :
    x.properties declare table ms = x.properties declare' table ms := by
  induction ms generalizing table with
  | nil => rfl
  | cons m ms ih =>
    obtain ⟨hm, hms⟩ := List.forall_mem_cons.1 h
    rw [properties, properties, propertyType_congr table hm]
    simp only [ih _ hms]

theorem shapes_congr (table : NestedTable) {vs : List Variant}
    (h : ∀ v ∈ vs, ∀ m ∈ v.fields, ∀ below, m.set? = some below → ∀ name,
      declare name below = declare' name below) :
    x.shapes declare table vs = x.shapes declare' table vs := by
  induction vs generalizing table with
  | nil => rfl
  | cons v vs ih =>
    obtain ⟨hv, hvs⟩ := List.forall_mem_cons.1 h
    rw [shapes, shapes, properties_congr table hv]
    simp only [ih _ hvs]

/-- **One level** depends on nothing but the selection sets that it calls for. -/
theorem declarationBy_congr {set : SelectionSet}
    (h : ∀ below, x.CallsFor set below → ∀ name, declare name below = declare' name below)
    (name : String) (description? : Option String) :
    x.declarationBy declare name description? set
      = x.declarationBy declare' name description? set := by
  rw [declarationBy, declarationBy]
  cases hvariants : x.collector.variants set with
  | error e => rw [Emit.ofExcept, Emit.throw_bind, Emit.throw_bind]
  | ok vs =>
    simp only [Emit.ofExcept, pure_bind]
    rw [shapes_congr [] fun v hv m hm below hset => h below ⟨vs, hvariants, v, hv, m, hm, hset⟩]

end Congr

/-! ## The way down -/

/-- The way down goes through a field. -/
theorem CallsFor.descends {set below : SelectionSet} (h : x.CallsFor set below) {n : Nat}
    (hdescends : x.collector.Descends [] below.selections n) :
    x.collector.Descends [] set.selections (n + 1) := by
  obtain ⟨vs, hvariants, v, hv, m, hm, hset⟩ := h
  obtain ⟨object?, -, c, hc, k, hk, hshape⟩ :=
    Collector.exists_shape_of_mem_variants hvariants hv hm
  obtain ⟨-, -, hsame⟩ := MergedField.shape_eq_iff.1 hshape
  exact Collector.descends_of_collect hc hk (hsame.trans hset) hdescends

/-- **No way down goes on without end** where the fields that can be passed are bounded. -/
theorem acc_callsFor {set : SelectionSet} {n : Nat}
    (h : ¬ x.collector.Descends [] set.selections n) :
    Acc (fun below above => x.CallsFor above below) set := by
  induction n generalizing set with
  | zero => exact absurd .stop h
  | succ n ih => exact .intro set fun below hbelow => ih fun hn => h (hbelow.descends hn)

/-! ## Without a count of levels -/

/-- The count of levels is of no account, as long as it is large enough. -/
theorem declarationWithin_eq {m n : Nat} {set : SelectionSet}
    (hm : ¬ x.collector.Descends [] set.selections m)
    (hn : ¬ x.collector.Descends [] set.selections n) (name : String)
    (description? : Option String) :
    x.declarationWithin m name description? set = x.declarationWithin n name description? set := by
  induction m generalizing n set name description? with
  | zero => exact absurd .stop hm
  | succ m ih =>
    cases n with
    | zero => exact absurd .stop hn
    | succ n =>
      rw [declarationWithin_succ, declarationWithin_succ]
      refine declarationBy_congr (fun below hbelow name => ?_) name description?
      exact ih (fun h => hm (hbelow.descends h)) (fun h => hn (hbelow.descends h)) name none

section Finite

variable (hfinite : x.options.mergesFragments = true → ∀ name, ¬ x.fragments.NestsInItself name)

include hfinite

/-- **The declaration of a selection set** is what one gets from the declarations of the sets that
it calls for. -/
theorem selectionDeclaration_eq (name : String) (description? : Option String)
    (set : SelectionSet) :
    x.selectionDeclaration name description? set
      = x.declarationBy (fun name below => x.selectionDeclaration name none below) name
          description? set := by
  rw [selectionDeclaration, levelsFor, declarationWithin_succ]
  refine declarationBy_congr (fun below hbelow name => ?_) name description?
  exact declarationWithin_eq (fun h => not_descends_nestingBound hfinite set (hbelow.descends h))
    (not_descends_nestingBound hfinite below) name none

/-- **Nothing else** is got so. -/
theorem eq_selectionDeclaration
    {declare : String → Option String → SelectionSet → Emit Declaration}
    (h : ∀ name description? set, declare name description? set
      = x.declarationBy (fun name below => declare name none below) name description? set)
    (name : String) (description? : Option String) (set : SelectionSet) :
    declare name description? set = x.selectionDeclaration name description? set := by
  induction acc_callsFor (not_descends_nestingBound hfinite set) generalizing name description?
  with
  | intro set _ ih =>
    rw [h, selectionDeclaration_eq hfinite]
    exact declarationBy_congr (fun below hbelow name => ih below hbelow name none) name description?

end Finite

/-- **No declaration fails for want of levels** where the fields that can be passed are fewer. -/
theorem not_isEndless_of_run {levels : Nat} {name : String} {description? : Option String}
    {set : SelectionSet} (hlevels : ¬ x.collector.Descends [] set.selections levels)
    {s t : Session} {err : GenerationError}
    (h : (x.declarationWithin levels name description? set).run s = (.error err, t)) :
    ¬ err.IsEndless := by
  induction levels generalizing name description? set s t with
  | zero => exact absurd .stop hlevels
  | succ levels ih =>
    rw [declarationWithin] at h
    rcases Emit.run_bind_eq_error_iff.1 h with h | ⟨vs, r, hvariants, h⟩
    · rw [Emit.run_ofExcept] at h
      obtain ⟨object?, -, hc⟩ := Collector.exists_collect_eq_error (Prod.mk.inj h).1
      exact Collector.not_isEndless_of_collect hc
    rw [Emit.run_ofExcept] at hvariants
    obtain ⟨hok, rfl⟩ := Prod.mk.inj hvariants
    rcases Emit.run_bind_eq_error_iff.1 h with h | ⟨⟨shapes, table⟩, r', -, h⟩
    · obtain ⟨v, hv, m, hm, table, q, q', hfails⟩ := exists_of_run_shapes_eq_error h
      rcases exists_of_run_propertyType_eq_error hfails with
        ⟨naming, htype⟩ | ⟨name', below, p, p', hmset, hdeclare⟩
      · exact Options.not_isEndless_of_typeExpr htype
      · have hbelow : x.CallsFor set below := ⟨vs, hok, v, hv, m, hm, hmset⟩
        exact ih (fun hn => hlevels (hbelow.descends hn)) hdeclare
    · cases h

end EmissionContext
end ResponseTypes
