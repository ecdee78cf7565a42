import ResponseTypes.Proofs.Emission.Selections

/-!
# Runs of emission

When a selection set can be declared, the fields of its variants have been gone over one after the
other.  A run is the record of this: for each field the property it became, and for selections that
were declared on the way the run inside, in the scope of its own.  What is true of the session and
of what was built follows by induction on the run.

## What is here

* `EmissionContext.Emits` — runs over fields.
* `EmissionContext.Builds` — a declaration has been built for a selection set.
* `EmissionContext.builds_of_run` — whoever declares a selection set has run through it.
-/

set_option autoImplicit false

namespace ResponseTypes

/-- The property that a field becomes. -/
def MergedField.property (m : MergedField) (type : TypeExpr) : Property :=
  { name := m.key, isOptional := false, type, description? := m.description? }

namespace Session

/-- The component that is claimed for a response key. -/
def componentFor (s : Session) (key : String) : String :=
  s.names.freeComponent s.printer.scope key

/-- The name of the declaration that is claimed for a response key. -/
def nameFor (s : Session) (key : String) : String :=
  joinName s.printer.scope (s.componentFor key)

/-- The session inside the declaration that is claimed for a response key. -/
def inside (s : Session) (key : String) : Session :=
  (s.claimed key).pushScope (s.componentFor key)

end Session

namespace EmissionContext

/-- A run over fields, from a session and a table to a session and a table.  It passes over each
field in one of four ways: the field is narrowed; it has selections that have been declared; it has
selections that are declared now; or it is called by its named type. -/
inductive Emits (x : EmissionContext) :
    Session → NestedTable → List MergedField → List Property → NestedTable → Session → Prop where
  | nil {s : Session} {table : NestedTable} : Emits x s table [] [] table s
  | narrowed {s t : Session} {table table' : NestedTable} {m : MergedField} {ms : List MergedField}
    {ps : List Property} {names : List String} (hnarrowed : m.literals? = some names)
    (hrest : Emits x s table ms ps table' t) :
    Emits x s table (m :: ms) (m.property (.literals names) :: ps) table' t
  | shared {s t : Session} {table table' : NestedTable} {m : MergedField} {ms : List MergedField}
    {ps : List Property} {e : NestedEntry} (hnarrowed : m.literals? = none)
    (hset : m.set? = some e.set) (hcomposite : m.type.isComposite = true) (he : e ∈ table)
    (hkey : e.key = m.key) (hrest : Emits x s table ms ps table' t) :
    Emits x s table (m :: ms)
      (m.property (.mirror (.named e.declaration.name) m.type) :: ps) table' t
  | nested {r s t : Session} {table table' inner : NestedTable} {m : MergedField}
    {ms : List MergedField} {ps : List Property} {set : SelectionSet} {vs : List Variant}
    {shapes : List Shape} (hnarrowed : m.literals? = none) (hset : m.set? = some set)
    (hcomposite : m.type.isComposite = true) (hvariants : x.collector.variants set = .ok vs)
    (hspreads : shapes.map Shape.spreads = vs.map Variant.spreads)
    (hinside : Emits x (s.inside m.key) [] (vs.flatMap Variant.fields)
      (shapes.flatMap Shape.properties) inner r)
    (hrest : Emits x r.popScope.2
      (table ++ [⟨m.key, set, .build (s.nameFor m.key) none (.ofShapes shapes) inner.declarations⟩])
      ms ps table' t) :
    Emits x s table (m :: ms) (m.property (.mirror (.named (s.nameFor m.key)) m.type) :: ps)
      table' t
  | plain {s t : Session} {table table' : NestedTable} {m : MergedField} {ms : List MergedField}
    {ps : List Property} (hnarrowed : m.literals? = none)
    (hother : m.set? = none ∨ m.type.isComposite = false)
    (hrest : Emits x (s.noteScalar (x.options.unmappedScalar? m.type)) table ms ps table' t) :
    Emits x s table (m :: ms)
      (m.property (.mirror (x.options.namedExpr (.byKey s.printer.scope m.key)
        m.type.innermostKind m.type.innermostName) m.type) :: ps) table' t

/-- A declaration has been built for a selection set, by a run over the fields of its variants. -/
inductive Builds (x : EmissionContext) (name : String) (description? : Option String)
    (set : SelectionSet) (s t : Session) : Declaration → Prop where
  | intro {vs : List Variant} {shapes : List Shape} {table : NestedTable}
    (hvariants : x.collector.variants set = .ok vs)
    (hspreads : shapes.map Shape.spreads = vs.map Variant.spreads)
    (hemits : Emits x s [] (vs.flatMap Variant.fields) (shapes.flatMap Shape.properties) table t) :
    Builds x name description? set s t (.build name description? (.ofShapes shapes)
      table.declarations)

variable {x : EmissionContext} {declare : String → SelectionSet → Emit Declaration}

/-- Runs follow on each other. -/
theorem Emits.append {r s t : Session} {table table' table'' : NestedTable}
    {ms ms' : List MergedField} {ps ps' : List Property} (h : x.Emits r table ms ps table' s)
    (h' : x.Emits s table' ms' ps' table'' t) :
    x.Emits r table (ms ++ ms') (ps ++ ps') table'' t := by
  induction h with
  | nil => exact h'
  | narrowed hnarrowed _ ih => exact .narrowed hnarrowed (ih h')
  | shared hnarrowed hset hcomposite he hkey _ ih =>
    exact .shared hnarrowed hset hcomposite he hkey (ih h')
  | nested hnarrowed hset hcomposite hvariants hspreads hinside _ _ ih =>
    exact .nested hnarrowed hset hcomposite hvariants hspreads hinside (ih h')
  | plain hnarrowed hother _ ih => exact .plain hnarrowed hother (ih h')

/-- A composite type notes no scalar. -/
theorem unmappedScalar?_of_isComposite (o : Options) {t : ResolvedType}
    (h : t.isComposite = true) : o.unmappedScalar? t = none := by
  rw [Options.unmappedScalar?]
  split
  · rename_i name hheart
    rw [ResolvedType.isComposite, ResolvedType.innermostKind, hheart] at h
    cases h
  · rfl

theorem type_of_claimed {o : Options} {name : String} {t : ResolvedType} {type : TypeExpr}
    (hcomposite : t.isComposite = true) (h : o.typeExpr (.claimed name) t = .ok type) :
    type = .mirror (.named name) t :=
  (Options.typeExpr_eq_mirror h).trans (by rw [Options.namedExpr_claimed _ _ _ hcomposite])

/-- Whoever goes over one field runs over it. -/
theorem emits_of_run_propertyType
    (hdeclare : ∀ name set s d t, (declare name set).run s = (.ok d, t) →
      x.Builds name none set s t d)
    {table table' : NestedTable} {m : MergedField} {s t : Session} {type : TypeExpr}
    (h : (x.propertyType declare table m).run s = (.ok (type, table'), t)) :
    x.Emits s table [m] [m.property type] table' t := by
  rcases propertyType_cases h with ⟨names, hnarrowed, rfl, rfl, rfl⟩ |
    ⟨set, name, hnarrowed, hset, hcomposite, hname, htype, rfl, rfl⟩ |
    ⟨set, d, r, hnarrowed, hset, hcomposite, hrun, htype, rfl, rfl⟩ |
    ⟨hnarrowed, hother, htype, rfl, rfl⟩
  · exact .narrowed hnarrowed .nil
  · obtain ⟨e, he, hkey, rfl, rfl⟩ := exists_entry_of_name? hname
    rw [type_of_claimed hcomposite htype, unmappedScalar?_of_isComposite _ hcomposite]
    exact .shared hnarrowed hset hcomposite he hkey .nil
  · rw [type_of_claimed hcomposite htype, unmappedScalar?_of_isComposite _ hcomposite]
    obtain ⟨hvariants, hspreads, hemits⟩ := hdeclare _ _ _ _ _ hrun
    exact .nested hnarrowed hset hcomposite hvariants hspreads hemits .nil
  · rw [Options.typeExpr_eq_mirror htype]
    exact .plain hnarrowed hother .nil

theorem emits_of_run_properties
    (hdeclare : ∀ name set s d t, (declare name set).run s = (.ok d, t) →
      x.Builds name none set s t d)
    {table table' : NestedTable} {ms : List MergedField} {s t : Session} {ps : List Property}
    (h : (x.properties declare table ms).run s = (.ok (ps, table'), t)) :
    x.Emits s table ms ps table' t := by
  induction ms generalizing table s ps with
  | nil =>
    cases h
    exact .nil
  | cons m ms ih =>
    rw [properties] at h
    obtain ⟨⟨type, table₁⟩, s₁, hfirst, h⟩ := Emit.run_bind_eq_ok_iff.1 h
    obtain ⟨⟨ps', table₂⟩, s₂, hrest, h⟩ := Emit.run_bind_eq_ok_iff.1 h
    cases h
    exact (emits_of_run_propertyType hdeclare hfirst).append (ih hrest)

theorem emits_of_run_shapes
    (hdeclare : ∀ name set s d t, (declare name set).run s = (.ok d, t) →
      x.Builds name none set s t d)
    {table table' : NestedTable} {vs : List Variant} {s t : Session} {shapes : List Shape}
    (h : (x.shapes declare table vs).run s = (.ok (shapes, table'), t)) :
    shapes.map Shape.spreads = vs.map Variant.spreads ∧
      x.Emits s table (vs.flatMap Variant.fields) (shapes.flatMap Shape.properties) table' t := by
  induction vs generalizing table s shapes with
  | nil =>
    cases h
    exact ⟨rfl, .nil⟩
  | cons v vs ih =>
    rw [EmissionContext.shapes] at h
    obtain ⟨⟨ps, table₁⟩, s₁, hfirst, h⟩ := Emit.run_bind_eq_ok_iff.1 h
    obtain ⟨⟨shapes', table₂⟩, s₂, hrest, h⟩ := Emit.run_bind_eq_ok_iff.1 h
    cases h
    obtain ⟨hspreads, hemits⟩ := ih hrest
    refine ⟨?_, (emits_of_run_properties hdeclare hfirst).append hemits⟩
    rw [List.map_cons, List.map_cons, hspreads]

/-- **Whoever declares a selection set has run through it.** -/
theorem builds_of_run (levels : Nat) {name : String} {description? : Option String}
    {set : SelectionSet} {s t : Session} {d : Declaration}
    (h : (x.declarationWithin levels name description? set).run s = (.ok d, t)) :
    x.Builds name description? set s t d := by
  induction levels generalizing name description? set s t d with
  | zero => cases h
  | succ levels ih =>
    rw [declarationWithin] at h
    obtain ⟨vs, r, hrun, h⟩ := Emit.run_bind_eq_ok_iff.1 h
    obtain ⟨⟨shapes, table⟩, r', hshapes, h⟩ := Emit.run_bind_eq_ok_iff.1 h
    cases h
    rw [Emit.run_ofExcept] at hrun
    obtain ⟨hvariants, rfl⟩ := Prod.mk.inj hrun
    obtain ⟨hspreads, hemits⟩ := emits_of_run_shapes (fun _ _ _ _ _ hd => ih hd) hshapes
    exact .intro hvariants hspreads hemits

end EmissionContext
end ResponseTypes
