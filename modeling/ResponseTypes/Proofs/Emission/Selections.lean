import ResponseTypes.Proofs.Compilation.WellTyped
import ResponseTypes.Proofs.Emission.Describing
import ResponseTypes.Proofs.Emission.Steps

/-!
# Emitted declarations describe selection sets

A declaration is emitted by going over its variants and their fields, with a table of the
declarations built inside on the way.  The table only grows, at its end, and every name that is
claimed on the way is the name of one declaration that is built.  So what a property said when the
table was shorter it says in the end, and no two declarations have the same name.

## What is here

* `EmissionContext.Explains` — a declaration describes a selection set, wherever its names are
  unique.
* `EmissionContext.Grows` — what emission does to the table and to the names.
* `Options.Renders.of_literals`, `of_entry`, `of_byKey` — the kinds of properties.
* `EmissionContext.propertyType_cases` — what one field does; `propertyType_spec`, `properties_spec`
  and `shapes_spec` follow the levels upwards.
* `EmissionContext.declarationWithin_spec` — what a whole declaration does.
-/

set_option autoImplicit false

namespace ResponseTypes

/-! ## Single properties -/

namespace Options.Renders

variable {o : Options} {table : NestedTable} {m : MergedField} {type : TypeExpr}

theorem of_literals {names : List String} (hm : m.WellTyped) (h : m.literals? = some names) :
    o.Renders table m
      { name := m.key, isOptional := false, type := .literals names,
        description? := m.description? } where
  name := rfl
  required := rfl
  description := rfl
  narrowed := by
    intro names' hnames'
    rw [Option.some.inj (hnames'.symm.trans h)]
  nested := by
    intro set hset hcomposite
    cases h.symm.trans (hm.literals?_eq_none hcomposite)
  plain := by
    intro hnone
    cases h.symm.trans hnone

/-- A field with selections refers to the declaration of an entry, with the wrappers of its type. -/
theorem of_entry {e : NestedEntry} (he : e ∈ table) (hkey : e.key = m.key)
    (hnarrowed : m.literals? = none) (hset : m.set? = some e.set)
    (hcomposite : m.type.isComposite = true)
    (htype : o.typeExpr (.claimed e.declaration.name) m.type = .ok type) :
    o.Renders table m
      { name := m.key, isOptional := false, type, description? := m.description? } where
  name := rfl
  required := rfl
  description := rfl
  narrowed := by
    intro names hnames
    cases hnarrowed.symm.trans hnames
  nested := by
    intro set hset' _
    refine ⟨e, he, hkey, Option.some.inj (hset.symm.trans hset'), ?_⟩
    exact (typeExpr_eq_mirror htype).trans (by rw [namedExpr_claimed _ _ _ hcomposite])
  plain := by
    intro _ hplain
    cases hcomposite.symm.trans hplain

theorem of_byKey {scope : List String} {key : String} (hnarrowed : m.literals? = none)
    (hother : m.set? = none ∨ m.type.isComposite = false)
    (htype : o.typeExpr (.byKey scope key) m.type = .ok type) :
    o.Renders table m
      { name := m.key, isOptional := false, type, description? := m.description? } where
  name := rfl
  required := rfl
  description := rfl
  narrowed := by
    intro names hnames
    cases hnarrowed.symm.trans hnames
  nested := by
    intro set hset hcomposite
    rcases hother with hnone | hplain
    · cases hset.symm.trans hnone
    · cases hcomposite.symm.trans hplain
  plain := by
    intro _ hplain
    exact (typeExpr_eq_mirror htype).trans
      (by rw [namedExpr_of_not_composite _ _ _ hplain])

end Options.Renders

namespace EmissionContext

variable {x : EmissionContext} {declare : String → SelectionSet → Emit Declaration}

/-! ## What is promised -/

/-- A declaration describes a selection set in every output in which the names inside it are unique.
-/
def Explains (x : EmissionContext) (d : Declaration) (set : SelectionSet) : Prop :=
  ∀ out, (∀ name ∈ declaredNames d.nested, (declaredNames out).count name = 1) →
    x.Describes out d set

/-- Emission adds declarations to a table; their names have been claimed, and each describes its
selections. -/
def Grows (x : EmissionContext) (s : Session) (table table' : NestedTable) (t : Session) : Prop :=
  ∃ added, table' = table ++ added ∧ s.Claims (declaredNames added.declarations) t ∧
    ∀ e ∈ added, x.Explains e.declaration e.set

/-- What a way to declare nested selections has to promise. -/
structure Declares (x : EmissionContext) (declare : String → SelectionSet → Emit Declaration) :
    Prop where
  keeps : ∀ name set, Emit.Keeps (declare name set)
  spec : ∀ name set s d t, set.All Field.WellTyped → (declare name set).run s = (.ok d, t) →
    d.name = name ∧ s.Claims (declaredNames d.nested) t ∧ x.Explains d set

namespace Grows

variable {r s t : Session} {table table' table'' : NestedTable}

theorem refl (table : NestedTable) (h : t.names = s.names) : x.Grows s table table t :=
  ⟨[], (List.append_nil table).symm, .of_names_eq h, by simp⟩

theorem trans (h : x.Grows r table table' s) (h' : x.Grows s table' table'' t) :
    x.Grows r table table'' t := by
  obtain ⟨added, rfl, hclaims, hadded⟩ := h
  obtain ⟨added', rfl, hclaims', hadded'⟩ := h'
  refine ⟨added ++ added', List.append_assoc _ _ _, ?_, ?_⟩
  · rw [NestedTable.declarations, List.map_append, declaredNames_append]
    exact hclaims.trans hclaims'
  · exact List.forall_mem_append.2 ⟨hadded, hadded'⟩

theorem subset (h : x.Grows s table table' t) : table ⊆ table' := by
  obtain ⟨added, rfl, -, -⟩ := h
  exact List.subset_append_left _ _

end Grows

/-! ## One field -/

/-- **What one field does**: a narrowed one is written out; selections that have been declared for
the key are referred to; others are declared under a name that is claimed for them; and all other
fields refer to their named type. -/
theorem propertyType_cases {table table' : NestedTable} {m : MergedField} {s t : Session}
    {type : TypeExpr}
    (h : (x.propertyType declare table m).run s = (.ok (type, table'), t)) :
    (∃ names, m.literals? = some names ∧ type = .literals names ∧ table' = table ∧ t = s) ∨
    (∃ set name, m.literals? = none ∧ m.set? = some set ∧ m.type.isComposite = true ∧
      table.name? m.key set = some name ∧
      x.options.typeExpr (.claimed name) m.type = .ok type ∧ table' = table ∧
      t = s.noteScalar (x.options.unmappedScalar? m.type)) ∨
    (∃ set d r, m.literals? = none ∧ m.set? = some set ∧ m.type.isComposite = true ∧
      (declare (joinName s.printer.scope (s.names.freeComponent s.printer.scope m.key)) set).run
        ((s.claimed m.key).pushScope (s.names.freeComponent s.printer.scope m.key)) = (.ok d, r) ∧
      x.options.typeExpr
        (.claimed (joinName s.printer.scope (s.names.freeComponent s.printer.scope m.key))) m.type
        = .ok type ∧
      table' = table ++ [{ key := m.key, set, declaration := d }] ∧
      t = r.popScope.2.noteScalar (x.options.unmappedScalar? m.type)) ∨
    (m.literals? = none ∧ (m.set? = none ∨ m.type.isComposite = false) ∧
      x.options.typeExpr (.byKey s.printer.scope m.key) m.type = .ok type ∧ table' = table ∧
      t = s.noteScalar (x.options.unmappedScalar? m.type)) := by
  rw [propertyType] at h
  split at h
  · rename_i names hnarrowed
    cases h
    exact .inl ⟨names, hnarrowed, rfl, rfl, rfl⟩
  · rename_i set hnarrowed hset hcomposite
    split at h
    · rename_i name hname
      obtain ⟨type', r, htype, h⟩ := Emit.run_bind_eq_ok_iff.1 h
      obtain ⟨hexpr, rfl⟩ := Emit.typeExpr_of_run_eq_ok htype
      cases h
      exact .inr (.inl ⟨set, name, hnarrowed, hset, hcomposite, hname, hexpr, rfl, rfl⟩)
    · rename_i hname
      obtain ⟨component, r, hclaim, h⟩ := Emit.run_bind_eq_ok_iff.1 h
      rw [Emit.run_claim] at hclaim
      cases hclaim
      obtain ⟨scope, r', hscope, h⟩ := Emit.run_bind_eq_ok_iff.1 h
      rw [Emit.run_scope] at hscope
      cases hscope
      obtain ⟨d, r', hdeclare, h⟩ := Emit.run_bind_eq_ok_iff.1 h
      obtain ⟨type', r'', htype, h⟩ := Emit.run_bind_eq_ok_iff.1 h
      obtain ⟨hexpr, rfl⟩ := Emit.typeExpr_of_run_eq_ok htype
      cases h
      obtain ⟨q, hrun, rfl⟩ := Emit.exists_of_run_inScope_eq_ok hdeclare
      exact .inr (.inr (.inl ⟨set, d, q, hnarrowed, hset, hcomposite, hrun, hexpr, rfl, rfl⟩))
  · rename_i hnarrowed hother
    obtain ⟨scope, r, hscope, h⟩ := Emit.run_bind_eq_ok_iff.1 h
    rw [Emit.run_scope] at hscope
    cases hscope
    obtain ⟨type', r, htype, h⟩ := Emit.run_bind_eq_ok_iff.1 h
    obtain ⟨hexpr, rfl⟩ := Emit.typeExpr_of_run_eq_ok htype
    cases h
    refine .inr (.inr (.inr ⟨hnarrowed, ?_, hexpr, rfl, rfl⟩))
    cases hset : m.set? with
    | none => exact .inl rfl
    | some set =>
      refine .inr ?_
      cases hcomposite : m.type.isComposite with
      | false => rfl
      | true => exact absurd hcomposite (hother set hset)

/-- The name that a table gives is that of an entry. -/
theorem exists_entry_of_name? {table : NestedTable} {key name : String} {set : SelectionSet}
    (h : table.name? key set = some name) :
    ∃ e ∈ table, e.key = key ∧ e.set = set ∧ e.declaration.name = name := by
  obtain ⟨e, he, hname⟩ := Option.map_eq_some_iff.1 h
  have hentry := List.find?_some he
  simp only [Bool.and_eq_true, beq_iff_eq] at hentry
  exact ⟨e, List.mem_of_find?_eq_some he, hentry.1, hentry.2, hname⟩

/-- Selections that are declared under a claimed name make the table grow by one declaration. -/
theorem Grows.of_claimed (hdeclare : x.Declares declare) {key : String} {set : SelectionSet}
    (hset : set.All Field.WellTyped) (table : NestedTable) {s r t : Session} {d : Declaration}
    (hrun : (declare (joinName s.printer.scope (s.names.freeComponent s.printer.scope key))
      set).run ((s.claimed key).pushScope (s.names.freeComponent s.printer.scope key)) = (.ok d, r))
    (ht : t.names = r.names) :
    d.name = joinName s.printer.scope (s.names.freeComponent s.printer.scope key) ∧
      x.Grows s table (table ++ [{ key, set, declaration := d }]) t := by
  obtain ⟨hname, hclaims, hexplains⟩ := hdeclare.spec _ _ _ _ _ hset hrun
  refine ⟨hname, [{ key, set, declaration := d }], rfl, ?_, by simpa using hexplains⟩
  have hall := (Session.Claims.claim s key).trans (hclaims.congr rfl rfl)
  rw [← hname] at hall
  have hnames : declaredNames (NestedTable.declarations [{ key, set, declaration := d }])
      = [d.name] ++ declaredNames d.nested := by
    rw [NestedTable.declarations, List.map_singleton, declaredNames_cons]
    simp [declaredNames, Declaration.flattenAll]
  rw [hnames]
  exact hall.congr rfl ht

/-- **One field**: the table grows, and the property says what the field is. -/
theorem propertyType_spec (hdeclare : x.Declares declare) {table table' : NestedTable}
    {m : MergedField} (hm : m.WellTyped) {s t : Session} {type : TypeExpr}
    (h : (x.propertyType declare table m).run s = (.ok (type, table'), t)) :
    x.Grows s table table' t ∧ x.options.Renders table' m
      { name := m.key, isOptional := false, type, description? := m.description? } := by
  rcases propertyType_cases h with ⟨names, hnarrowed, rfl, rfl, rfl⟩ |
    ⟨set, name, hnarrowed, hset, hcomposite, hname, htype, rfl, rfl⟩ |
    ⟨set, d, r, hnarrowed, hset, hcomposite, hrun, htype, rfl, rfl⟩ |
    ⟨hnarrowed, hother, htype, rfl, rfl⟩
  · exact ⟨.refl _ rfl, .of_literals hm hnarrowed⟩
  · obtain ⟨e, he, hkey, rfl, rfl⟩ := exists_entry_of_name? hname
    exact ⟨.refl _ (s.noteScalar_names _), .of_entry he hkey hnarrowed hset hcomposite htype⟩
  · obtain ⟨hname, hgrows⟩ := Grows.of_claimed hdeclare (hm.selections set hset) table hrun
      (r.popScope.2.noteScalar_names _)
    rw [← hname] at htype
    refine ⟨hgrows, ?_⟩
    exact .of_entry (List.mem_append_right _ List.mem_cons_self) rfl hnarrowed hset hcomposite htype
  · exact ⟨.refl _ (s.noteScalar_names _), .of_byKey hnarrowed hother htype⟩

/-! ## The fields of a variant, and all variants -/

theorem properties_spec (hdeclare : x.Declares declare) {table table' : NestedTable}
    {ms : List MergedField} (hms : ∀ m ∈ ms, m.WellTyped) {s t : Session} {ps : List Property}
    (h : (x.properties declare table ms).run s = (.ok (ps, table'), t)) :
    x.Grows s table table' t ∧ List.Forall₂ (x.options.Renders table') ms ps := by
  induction ms generalizing table s ps with
  | nil =>
    cases h
    exact ⟨.refl _ rfl, .nil⟩
  | cons m ms ih =>
    obtain ⟨hm, hms⟩ := List.forall_mem_cons.1 hms
    rw [properties] at h
    obtain ⟨⟨type, table₁⟩, s₁, hfirst, h⟩ := Emit.run_bind_eq_ok_iff.1 h
    obtain ⟨⟨ps', table₂⟩, s₂, hrest, h⟩ := Emit.run_bind_eq_ok_iff.1 h
    cases h
    obtain ⟨hgrows, hrenders⟩ := propertyType_spec hdeclare hm hfirst
    obtain ⟨hgrows', hrenders'⟩ := ih hms hrest
    exact ⟨hgrows.trans hgrows', .cons (hrenders.mono hgrows'.subset) hrenders'⟩

theorem shapes_spec (hdeclare : x.Declares declare) {table table' : NestedTable}
    {vs : List Variant} (hvs : ∀ v ∈ vs, ∀ m ∈ v.fields, m.WellTyped) {s t : Session}
    {shapes : List Shape} (h : (x.shapes declare table vs).run s = (.ok (shapes, table'), t)) :
    x.Grows s table table' t ∧ List.Forall₂ (x.options.RendersVariant table') vs shapes := by
  induction vs generalizing table s shapes with
  | nil =>
    cases h
    exact ⟨.refl _ rfl, .nil⟩
  | cons v vs ih =>
    obtain ⟨hv, hvs⟩ := List.forall_mem_cons.1 hvs
    rw [EmissionContext.shapes] at h
    obtain ⟨⟨ps, table₁⟩, s₁, hfirst, h⟩ := Emit.run_bind_eq_ok_iff.1 h
    obtain ⟨⟨shapes', table₂⟩, s₂, hrest, h⟩ := Emit.run_bind_eq_ok_iff.1 h
    cases h
    obtain ⟨hgrows, hrenders⟩ := properties_spec hdeclare hv hfirst
    obtain ⟨hgrows', hrenders'⟩ := ih hvs hrest
    have hvariant : x.options.RendersVariant table₁ v { spreads := v.spreads, properties := ps } :=
      ⟨rfl, hrenders⟩
    exact ⟨hgrows.trans hgrows', .cons (hvariant.mono hgrows'.subset) hrenders'⟩

/-! ## Whole declarations -/

section Respects

variable {R : Session → Session → Prop} (hR : Session.Tracks R)

include hR

theorem respects_propertyType (hdeclare : ∀ name set, Emit.Respects R (declare name set))
    (table : NestedTable) (m : MergedField) :
    Emit.Respects R (x.propertyType declare table m) := by
  rw [propertyType]
  split
  · exact .pure hR.types _
  · split
    · exact .bind hR.types (.typeExpr hR.types _ _ _) fun _ => .pure hR.types _
    · exact .bind hR.types (.claim hR _) fun _ => .bind hR.types (.scope hR.types) fun _ =>
        .bind hR.types (.inScope hR _ (hdeclare _ _)) fun _ =>
          .bind hR.types (.typeExpr hR.types _ _ _) fun _ => .pure hR.types _
  · exact .bind hR.types (.scope hR.types) fun _ =>
      .bind hR.types (.typeExpr hR.types _ _ _) fun _ => .pure hR.types _

theorem respects_properties (hdeclare : ∀ name set, Emit.Respects R (declare name set))
    (table : NestedTable) (ms : List MergedField) :
    Emit.Respects R (x.properties declare table ms) := by
  induction ms generalizing table with
  | nil => exact .pure hR.types _
  | cons m ms ih =>
    rw [properties]
    exact .bind hR.types (respects_propertyType hR hdeclare table m) fun _ =>
      .bind hR.types (ih _) fun _ => .pure hR.types _

theorem respects_shapes (hdeclare : ∀ name set, Emit.Respects R (declare name set))
    (table : NestedTable) (vs : List Variant) :
    Emit.Respects R (x.shapes declare table vs) := by
  induction vs generalizing table with
  | nil => exact .pure hR.types _
  | cons v vs ih =>
    rw [shapes]
    exact .bind hR.types (respects_properties hR hdeclare table v.fields) fun _ =>
      .bind hR.types (ih _) fun _ => .pure hR.types _

/-- **What no step changes, the declaration of a selection set does not change.** -/
theorem respects_declarationWithin (levels : Nat) (name : String) (description? : Option String)
    (set : SelectionSet) :
    Emit.Respects R (x.declarationWithin levels name description? set) := by
  induction levels generalizing name description? set with
  | zero => exact .throw hR.types _
  | succ levels ih =>
    rw [declarationWithin]
    exact .bind hR.types (.ofExcept hR.types _) fun _ =>
      .bind hR.types (respects_shapes hR (fun _ _ => ih _ _ _) _ _) fun _ => .pure hR.types _

end Respects

/-- **A declaration describes its selection set**, and the names of the declarations inside have
been claimed for it. -/
theorem declarationWithin_spec (hfragments : ∀ f ∈ x.fragments, f.set.All Field.WellTyped)
    (levels : Nat) {name : String} {description? : Option String} {set : SelectionSet}
    (hset : set.All Field.WellTyped) {s t : Session} {d : Declaration}
    (h : (x.declarationWithin levels name description? set).run s = (.ok d, t)) :
    d.name = name ∧ s.Claims (declaredNames d.nested) t ∧ x.Explains d set := by
  induction levels generalizing name description? set s t d with
  | zero => cases h
  | succ levels ih =>
    have hdeclares : x.Declares fun name set => x.declarationWithin levels name none set :=
      ⟨fun _ _ => respects_declarationWithin Session.tracks_taken _ _ _ _,
        fun _ _ _ _ _ hset h => ih hset h⟩
    rw [declarationWithin] at h
    obtain ⟨vs, r, hrun, h⟩ := Emit.run_bind_eq_ok_iff.1 h
    obtain ⟨⟨shapes, table⟩, r', hshapes, h⟩ := Emit.run_bind_eq_ok_iff.1 h
    cases h
    rw [Emit.run_ofExcept] at hrun
    obtain ⟨hvariants, rfl⟩ := Prod.mk.inj hrun
    have hwell : ∀ v ∈ vs, ∀ m ∈ v.fields, m.WellTyped :=
      Collector.wellTyped_of_variants hset hfragments hvariants
    obtain ⟨⟨added, htable, hclaims, hexplains⟩, hrenders⟩ := shapes_spec hdeclares hwell hshapes
    obtain rfl : table = added := htable
    refine ⟨rfl, hclaims, ?_⟩
    intro out hunique
    refine .intro table hvariants rfl rfl hrenders ?_ ?_
    · intro e he
      exact hunique _ (name_mem_declaredNames (List.mem_map_of_mem he))
    · intro e he
      refine hexplains e he out fun name hname => hunique name ?_
      exact declaredNames_nested_subset (List.mem_map_of_mem he) hname

end EmissionContext
end ResponseTypes
