import ResponseTypes.Proofs.Collection.Covering
import ResponseTypes.Proofs.Compilation.UsedTypes
import ResponseTypes.Proofs.Declaration.Referring
import ResponseTypes.Proofs.Emission.Running
import ResponseTypes.Proofs.Variant.Reaching

/-!
# What emitted properties refer to

A name in an emitted property is a keyword, an enum or an input object that is used, a custom scalar
that has been noted, or the name of a declaration inside.  Conversely, a scalar is noted only when a
property refers to it.  Noted scalars are never forgotten; so what is known in the middle of a run
is known at its end.

## What is here

* `EmissionContext.Knows` — the names that are known without nested declarations.
* `EmissionContext.Notes` — what happens to the scalars that are noted.
* `EmissionContext.Admits` — the fields for which all this holds; `EmissionContext.Grounds` — the
  declarations.
* `EmissionContext.Emits.notes`, `EmissionContext.Emits.grounds` — whole runs.
-/

set_option autoImplicit false

namespace ResponseTypes

/-- The words of a target for the types of values. -/
def Syntax.typeKeywords (s : Syntax) : List String :=
  [s.stringType, s.numberType, s.booleanType, s.anyType]

/-- A name is that of a scalar which is not a built-in one. -/
def Schema.IsCustomScalar (s : Schema) (name : String) : Prop :=
  BuiltinScalar.ofName? name = none ∧ ∃ d, s.get? name = some (.scalar d)

/-! ## Noted scalars -/

namespace Session

theorem mem_unmapped_noteScalar {s : Session} {scalar? : Option String} {name : String} :
    name ∈ (s.noteScalar scalar?).unmapped ↔ name ∈ s.unmapped ∨ scalar? = some name := by
  cases scalar? with
  | none => simp [noteScalar]
  | some scalar =>
    rw [noteScalar]
    split
    · rename_i hnoted
      rw [List.contains_iff_mem] at hnoted
      constructor
      · exact .inl
      · rintro (h | h)
        · exact h
        · exact Option.some.inj h ▸ hnoted
    · simp [eq_comm]

theorem nodup_unmapped_noteScalar {s : Session} (h : s.unmapped.Nodup) (scalar? : Option String) :
    (s.noteScalar scalar?).unmapped.Nodup := by
  cases scalar? with
  | none => exact h
  | some scalar =>
    rw [noteScalar]
    split
    · exact h
    · rename_i hnoted
      rw [List.contains_iff_mem] at hnoted
      refine List.nodup_append.2 ⟨h, by simp, ?_⟩
      rintro other hother _ hlast rfl
      exact hnoted (List.mem_singleton.1 hlast ▸ hother)

end Session

theorem Options.unmappedScalar?_eq_some_iff {o : Options} {t : ResolvedType} {name : String} :
    o.unmappedScalar? t = some name ↔ t.innermostKind = .scalar ∧ t.innermostName = name ∧
      BuiltinScalar.ofName? name = none ∧ o.passesCustomScalars = false := by
  rw [unmappedScalar?, ResolvedType.innermostKind, ResolvedType.innermostName]
  obtain ⟨kind, heart⟩ := t.innermost
  cases kind with
  | scalar =>
    simp only [Bool.or_eq_true, Option.isSome_iff_ne_none]
    split
    · rename_i h
      constructor
      · intro hname
        cases hname
      · rintro ⟨-, rfl, hcustom, hpasses⟩
        rcases h with hbuiltin | hpassed
        · exact absurd hcustom hbuiltin
        · exact absurd hpasses (ne_false_of_eq_true hpassed)
    · rename_i h
      obtain ⟨hcustom, hpasses⟩ := not_or.1 h
      constructor
      · intro hname
        obtain rfl := Option.some.inj hname
        exact ⟨trivial, rfl, not_not.1 hcustom, eq_false_of_ne_true hpasses⟩
      · rintro ⟨-, rfl, -⟩
        rfl
  | enum | object | interface | union | inputObject => simp

namespace EmissionContext

variable {x : EmissionContext} {u : UsedTypes}

/-- A name that is known without looking at nested declarations: a keyword, a custom scalar that has
been noted, or a type that is used. -/
def Knows (x : EmissionContext) (u : UsedTypes) (noted : List String) (name : String) : Prop :=
  name ∈ x.options.targetSyntax.typeKeywords ∨
    (∃ scalar ∈ noted, name = x.options.customScalarPrefix ++ scalar) ∨ name ∈ u

theorem Knows.mono {noted noted' : List String} {name : String} (h : x.Knows u noted name)
    (hnoted : noted ⊆ noted') : x.Knows u noted' name := by
  rcases h with hkeyword | ⟨scalar, hscalar, hname⟩ | hused
  · exact .inl hkeyword
  · exact .inr (.inl ⟨scalar, hnoted hscalar, hname⟩)
  · exact .inr (.inr hused)

/-- From one session to a later one, custom scalars have been noted, none of them twice, and
properties refer to those that are new. -/
structure Notes (x : EmissionContext) (ps : List Property) (s t : Session) : Prop where
  kept : s.unmapped ⊆ t.unmapped
  nodup : s.unmapped.Nodup → t.unmapped.Nodup
  referred : ∀ scalar ∈ t.unmapped, scalar ∈ s.unmapped ∨ x.schema.IsCustomScalar scalar ∧
    ∃ p ∈ ps, x.options.customScalarPrefix ++ scalar ∈ p.type.names

namespace Notes

variable {r s t : Session} {ps qs : List Property}

theorem of_unmapped_eq (h : t.unmapped = s.unmapped) : x.Notes ps s t where
  kept := h ▸ List.Subset.refl _
  nodup := fun hnodup => h ▸ hnodup
  referred := fun _ hscalar => .inl (h ▸ hscalar)

theorem mono (h : x.Notes ps s t) (hps : ps ⊆ qs) : x.Notes qs s t where
  kept := h.kept
  nodup := h.nodup
  referred := by
    intro scalar hscalar
    refine (h.referred scalar hscalar).imp_right ?_
    rintro ⟨hcustom, p, hp, hname⟩
    exact ⟨hcustom, p, hps hp, hname⟩

/-- Only the scalars noted in the sessions matter. -/
theorem congr {s' t' : Session} (h : x.Notes ps s t) (hs : s'.unmapped = s.unmapped)
    (ht : t'.unmapped = t.unmapped) : x.Notes ps s' t' where
  kept := by rw [hs, ht]; exact h.kept
  nodup := by rw [hs, ht]; exact h.nodup
  referred := by rw [hs, ht]; exact h.referred

theorem trans (h : x.Notes ps r s) (h' : x.Notes qs s t) : x.Notes (ps ++ qs) r t where
  kept := List.Subset.trans h.kept h'.kept
  nodup := fun hnodup => h'.nodup (h.nodup hnodup)
  referred := by
    intro scalar hscalar
    rcases (h'.mono (List.subset_append_right ps qs)).referred scalar hscalar with hearlier | hnew
    · exact (h.mono (List.subset_append_left ps qs)).referred scalar hearlier
    · exact .inr hnew

end Notes

/-! ## One type -/

variable {t : ResolvedType}

/-- **The names in the expression of a type** that is not composite are known, once its scalar has
been noted. -/
theorem knows_of_mem_names (h : x.schema.Accounts u t) (hplain : t.isComposite = false)
    {naming : CompositeNaming} {s : Session} {name : String}
    (hname : name ∈ (TypeExpr.mirror
      (x.options.namedExpr naming t.innermostKind t.innermostName) t).names) :
    x.Knows u (s.noteScalar (x.options.unmappedScalar? t)).unmapped name := by
  rw [TypeExpr.names_mirror] at hname
  cases hkind : t.innermostKind with
  | scalar =>
    rw [hkind, Options.namedExpr, Options.scalarExpr] at hname
    split at hname
    · rename_i b hbuiltin
      refine .inl (List.mem_singleton.1 hname ▸ ?_)
      cases b <;> simp [Options.builtinKeyword, Syntax.typeKeywords]
    · rename_i hcustom
      split at hname
      · exact .inl (List.mem_singleton.1 hname ▸ by simp [Syntax.typeKeywords])
      · rename_i hpasses
        refine .inr (.inl ⟨t.innermostName, ?_, List.mem_singleton.1 hname⟩)
        exact Session.mem_unmapped_noteScalar.2 (.inr (Options.unmappedScalar?_eq_some_iff.2
          ⟨hkind, rfl, hcustom, by simpa using hpasses⟩))
  | enum =>
    rw [hkind] at hname
    exact .inr (.inr (List.mem_singleton.1 hname ▸ h.used (.inl hkind)))
  | inputObject =>
    rw [hkind] at hname
    exact .inr (.inr (List.mem_singleton.1 hname ▸ h.used (.inr hkind)))
  | object | interface | union =>
    rw [ResolvedType.isComposite, hkind] at hplain
    cases hplain

/-- A property notes the custom scalar at the heart of its type. -/
theorem notes_noteScalar (h : x.schema.Accounts u t) {naming : CompositeNaming} (s : Session)
    {p : Property} (hp : p.type = .mirror
      (x.options.namedExpr naming t.innermostKind t.innermostName) t) :
    x.Notes [p] s (s.noteScalar (x.options.unmappedScalar? t)) where
  kept := fun _ hmem => Session.mem_unmapped_noteScalar.2 (.inl hmem)
  nodup := fun hnodup => Session.nodup_unmapped_noteScalar hnodup _
  referred := by
    intro scalar hscalar
    refine (Session.mem_unmapped_noteScalar.1 hscalar).imp_right fun hnoted => ?_
    obtain ⟨hkind, rfl, hcustom, hpasses⟩ := Options.unmappedScalar?_eq_some_iff.1 hnoted
    refine ⟨⟨hcustom, ?_⟩, p, List.mem_singleton_self p, ?_⟩
    · refine (h.scalar hkind).resolve_left ?_
      rw [hcustom]
      exact Bool.false_ne_true
    · rw [hp, TypeExpr.names_mirror, hkind, Options.namedExpr, Options.scalarExpr, hcustom]
      simp [hpasses, TypeExpr.names]

/-! ## Fields and declarations -/

/-- The type of a field is accounted for, and selections are made on its value if the type is
composite. -/
def Fits (x : EmissionContext) (u : UsedTypes) (f : Field) (set? : Option SelectionSet) : Prop :=
  f.WellTyped set? ∧ x.schema.Accounts u f.type

/-- The type of a collected field is accounted for, and the selections on its value are covered. -/
structure Admits (x : EmissionContext) (u : UsedTypes) (m : MergedField) : Prop where
  composite : m.type.isComposite = m.set?.isSome
  accounted : x.schema.Accounts u m.type
  covers : ∀ set ∈ m.set?, x.collector.Covers (x.Fits u) set.selections

/-- The fields of variants are admitted. -/
theorem admits_of_variants
    (hfragments : ∀ g ∈ x.fragments, x.collector.Covers (x.Fits u) g.set.selections)
    {set : SelectionSet} (hset : x.collector.Covers (x.Fits u) set.selections) {vs : List Variant}
    (h : x.collector.variants set = .ok vs) : ∀ m ∈ vs.flatMap Variant.fields, x.Admits u m := by
  have hwell : ∀ {s : SelectionSet}, x.collector.Covers (x.Fits u) s.selections →
      s.All Field.WellTyped := fun hs =>
    (SelectionSet.all_iff.2 hs.all).imp fun _ _ hfits => hfits.1
  intro m hm
  obtain ⟨v, hv, hm⟩ := List.mem_flatMap.1 hm
  obtain ⟨object?, -, c, hc, n, hn, hshape⟩ := Collector.exists_shape_of_mem_variants h hv hm
  obtain ⟨-, htype, hsets⟩ := MergedField.shape_eq_iff.1 hshape
  obtain ⟨⟨f, set?, hfits, hf⟩, hbelow⟩ := Collector.Covers.of_collect hfragments hset hc hn
  refine ⟨?_, ?_, ?_⟩
  · exact (Collector.wellTyped_of_variants (hwell hset) (fun g hg => hwell (hfragments g hg)) h v hv
      m hm).composite
  · rw [← htype, ← hf]
    exact hfits.2
  · rw [← hsets]
    exact hbelow

/-- The names in the properties of a declaration are known or those of declarations inside, and the
fragments it takes in are registered. -/
structure Grounds (x : EmissionContext) (u : UsedTypes) (noted : List String) (d : Declaration) :
    Prop where
  named : ∀ p ∈ d.properties, ∀ name ∈ p.type.names,
    x.Knows u noted name ∨ name ∈ d.nested.map Declaration.name
  spreads : ∀ shape ∈ d.body.shapes, ∀ fragment ∈ shape.spreads, fragment ∈ x.fragments.names

theorem Grounds.mono {noted noted' : List String} {d : Declaration} (h : x.Grounds u noted d)
    (hnoted : noted ⊆ noted') : x.Grounds u noted' d where
  named := fun p hp name hname =>
    (h.named p hp name hname).imp_left fun hknown => hknown.mono hnoted
  spreads := h.spreads

/-! ## Runs -/

variable (hfragments : ∀ g ∈ x.fragments, x.collector.Covers (x.Fits u) g.set.selections)

include hfragments

/-- The properties that are emitted note scalars, with those of the declarations that were added to
the table. -/
theorem Emits.notes {s t : Session} {table table' : NestedTable} {ms : List MergedField}
    {ps : List Property} (h : x.Emits s table ms ps table' t) (hms : ∀ m ∈ ms, x.Admits u m) :
    ∃ added, table' = table ++ added ∧
      x.Notes (ps ++ Declaration.propertiesAll added.declarations) s t := by
  induction h with
  | nil => exact ⟨[], (List.append_nil _).symm, .of_unmapped_eq rfl⟩
  | narrowed _ _ ih =>
    obtain ⟨added, rfl, hnotes⟩ := ih (List.forall_mem_cons.1 hms).2
    exact ⟨added, rfl, hnotes.mono (List.subset_cons_self _ _)⟩
  | shared _ _ _ _ _ _ ih =>
    obtain ⟨added, rfl, hnotes⟩ := ih (List.forall_mem_cons.1 hms).2
    exact ⟨added, rfl, hnotes.mono (List.subset_cons_self _ _)⟩
  | @nested r s t table table' inner m ms ps set vs shapes _ hset _ hvariants _ _ _ ihinside ih =>
    obtain ⟨hm, hms⟩ := List.forall_mem_cons.1 hms
    obtain ⟨inner', hinner, hinside⟩ :=
      ihinside (admits_of_variants hfragments (hm.covers set hset) hvariants)
    obtain rfl : inner = inner' := hinner
    obtain ⟨added, rfl, hrest⟩ := ih hms
    refine ⟨_ :: added, List.append_assoc _ _ _, ?_⟩
    -- Neither entering a scope nor leaving it changes what is noted.
    have hall : x.Notes _ s t :=
      Notes.trans (s := r) (hinside.congr rfl rfl) (hrest.congr rfl rfl)
    refine hall.mono ?_
    rw [NestedTable.declarations_cons, Declaration.propertiesAll_cons,
      Declaration.properties_build]
    intro p hp
    simp only [List.mem_append, List.mem_cons] at hp ⊢
    rcases hp with (hp | hp) | hp | hp
    · exact .inr (.inl hp)
    · exact .inr (.inr (.inl hp))
    · exact .inl (.inr hp)
    · exact .inr (.inr (.inr hp))
  | @plain s t table table' m ms ps _ _ _ ih =>
    obtain ⟨hm, hms⟩ := List.forall_mem_cons.1 hms
    obtain ⟨added, rfl, hrest⟩ := ih hms
    exact ⟨added, rfl, (notes_noteScalar hm.accounted s rfl).trans hrest⟩

omit hfragments in
/-- A field that has no declaration of its own is not of a composite type. -/
theorem Admits.isComposite_eq_false {m : MergedField} (h : x.Admits u m)
    (hother : m.set? = none ∨ m.type.isComposite = false) : m.type.isComposite = false := by
  rcases hother with hnone | hplain
  · rw [h.composite, hnone]
    rfl
  · exact hplain

/-- A declaration that is built from a run is grounded. -/
theorem grounds_build {set : SelectionSet}
    (hset : x.collector.Covers (x.Fits u) set.selections) {vs : List Variant}
    (hvariants : x.collector.variants set = .ok vs) {shapes : List Shape}
    (hspreads : shapes.map Shape.spreads = vs.map Variant.spreads) {table : NestedTable}
    {noted : List String}
    (hproperties : ∀ p ∈ shapes.flatMap Shape.properties, ∀ name ∈ p.type.names,
      x.Knows u noted name ∨ name ∈ table.declarations.map Declaration.name)
    (name : String) (description? : Option String) :
    x.Grounds u noted (.build name description? (.ofShapes shapes) table.declarations) where
  named := by
    rw [Declaration.properties_build]
    exact hproperties
  spreads := by
    intro shape hshape fragment hfragment
    have hmem : shape ∈ shapes := by
      rwa [Declaration.build, Declaration.body, Body.shapes_ofShapes] at hshape
    have hspread : shape.spreads ∈ vs.map Variant.spreads :=
      hspreads ▸ List.mem_map_of_mem hmem
    obtain ⟨v, hv, heq⟩ := List.mem_map.1 hspread
    obtain ⟨f, hget⟩ := Collector.Covers.exists_get?_of_mem_spreads hfragments hset hvariants hv
      (heq ▸ hfragment)
    exact List.mem_map.2
      ⟨f, FragmentRegistry.mem_of_get? hget, FragmentRegistry.name_of_get? hget⟩

/-- **The properties that are emitted** refer to what is known and to declarations of the table, and
the declarations that were added to the table are grounded. -/
theorem Emits.grounds {s t : Session} {table table' : NestedTable} {ms : List MergedField}
    {ps : List Property} (h : x.Emits s table ms ps table' t) (hms : ∀ m ∈ ms, x.Admits u m) :
    (∀ p ∈ ps, ∀ name ∈ p.type.names,
        x.Knows u t.unmapped name ∨ name ∈ table'.declarations.map Declaration.name) ∧
      ∃ added, table' = table ++ added ∧
        ∀ d ∈ Declaration.flattenAll added.declarations, x.Grounds u t.unmapped d := by
  induction h with
  | nil => exact ⟨by simp, [], (List.append_nil _).symm, by simp [NestedTable.declarations,
      Declaration.flattenAll]⟩
  | @narrowed s t table table' m ms ps names _ _ ih =>
    obtain ⟨hnamed, hadded⟩ := ih (List.forall_mem_cons.1 hms).2
    refine ⟨List.forall_mem_cons.2 ⟨?_, hnamed⟩, hadded⟩
    intro name hname
    rw [MergedField.property, TypeExpr.names_literals] at hname
    cases hname
  | @shared s t table table' m ms ps e _ _ _ he _ _ ih =>
    obtain ⟨hnamed, added, rfl, hadded⟩ := ih (List.forall_mem_cons.1 hms).2
    refine ⟨List.forall_mem_cons.2 ⟨?_, hnamed⟩, added, rfl, hadded⟩
    intro name hname
    rw [MergedField.property, TypeExpr.names_mirror] at hname
    obtain rfl := List.mem_singleton.1 hname
    exact .inr (List.mem_map_of_mem (List.mem_map_of_mem (List.mem_append_left _ he)))
  | @nested r s t table table' inner m ms ps set vs shapes _ hset _ hvariants hspreads _ hrest
      ihinside ih =>
    obtain ⟨hm, hms⟩ := List.forall_mem_cons.1 hms
    have hcovers := hm.covers set hset
    obtain ⟨hinside, inner', hinner, hflat⟩ :=
      ihinside (admits_of_variants hfragments hcovers hvariants)
    obtain rfl : inner = inner' := hinner
    obtain ⟨_, _, hnotes⟩ := hrest.notes hfragments hms
    have hkept : r.unmapped ⊆ t.unmapped := hnotes.kept
    obtain ⟨hnamed, added, rfl, hadded⟩ := ih hms
    refine ⟨List.forall_mem_cons.2 ⟨?_, hnamed⟩, _ :: added, List.append_assoc _ _ _, ?_⟩
    · intro name hname
      rw [MergedField.property, TypeExpr.names_mirror] at hname
      obtain rfl := List.mem_singleton.1 hname
      refine .inr (List.mem_map.2 ⟨_, List.mem_map_of_mem (List.mem_append_left _
        (List.mem_append_right _ List.mem_cons_self)), rfl⟩)
    · rw [NestedTable.declarations_cons, Declaration.flattenAll_cons]
      refine List.forall_mem_cons.2 ⟨?_, List.forall_mem_append.2 ⟨?_, hadded⟩⟩
      · exact (grounds_build hfragments hcovers hvariants hspreads hinside _ _).mono hkept
      · exact fun d hd => (hflat d hd).mono hkept
  | @plain s t table table' m ms ps _ hother hrest ih =>
    obtain ⟨hm, hms⟩ := List.forall_mem_cons.1 hms
    obtain ⟨_, _, hnotes⟩ := hrest.notes hfragments hms
    obtain ⟨hnamed, hadded⟩ := ih hms
    refine ⟨List.forall_mem_cons.2 ⟨?_, hnamed⟩, hadded⟩
    intro name hname
    exact .inl ((knows_of_mem_names hm.accounted (hm.isComposite_eq_false hother) hname).mono
      hnotes.kept)

/-- **The declaration of a selection set** notes scalars, and it is grounded, with all declarations
inside. -/
theorem Builds.grounds {name : String} {description? : Option String} {set : SelectionSet}
    {s t : Session} {d : Declaration} (h : x.Builds name description? set s t d)
    (hset : x.collector.Covers (x.Fits u) set.selections) :
    x.Notes (Declaration.propertiesAll [d]) s t ∧
      ∀ e ∈ Declaration.flattenAll [d], x.Grounds u t.unmapped e := by
  cases h with
  | @intro vs shapes table hvariants hspreads hemits =>
    have hadmits := admits_of_variants hfragments hset hvariants
    obtain ⟨table', htable, hnotes⟩ := hemits.notes hfragments hadmits
    obtain rfl : table = table' := htable
    obtain ⟨hnamed, table', htable, hflat⟩ := hemits.grounds hfragments hadmits
    obtain rfl : table = table' := htable
    rw [Declaration.propertiesAll_cons, Declaration.flattenAll_cons, Declaration.properties_build]
    refine ⟨hnotes.mono ?_, List.forall_mem_cons.2 ⟨?_, List.forall_mem_append.2 ⟨hflat, ?_⟩⟩⟩
    · exact List.append_subset.2 ⟨List.subset_append_left _ _,
        List.subset_append_of_subset_right _ (List.subset_append_left _ _)⟩
    · exact grounds_build hfragments hset hvariants hspreads hnamed _ _
    · simp [Declaration.flattenAll]

end EmissionContext
end ResponseTypes
