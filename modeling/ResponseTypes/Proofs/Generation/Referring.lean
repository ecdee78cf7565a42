import ResponseTypes.Proofs.Compilation.Grounding
import ResponseTypes.Proofs.Emission.Referring
import ResponseTypes.Proofs.Generation.Naming

/-!
# No reference dangles

If nothing fails, every name in the output stands for something: a keyword, a custom scalar that is
reported, or a declaration.  The declarations of enums and input objects are there because the types
that are used are closed, those of fragments because all fragments that are used are registered, and
nested ones because a property refers to a declaration of its own table.  Conversely, what is nested
or reported is referred to.

## What is here

* `Compilation.TakesInputs` — fields of input objects and variables have no composite types.
* `Expected.grounds_declaration`, `Generates.grounds` — the names in what is generated.
* `Output.Connected` and `connected_of_generate`.
-/

set_option autoImplicit false

namespace ResponseTypes

/-! ## Inputs -/

theorem TypeKind.isComposite_eq_false {kind : TypeKind} (h : kind.isInput = true) :
    kind.isComposite = false := by
  cases kind <;> first | rfl | cases h

/-- A type is not composite if what it is resolved from is an input. -/
theorem Schema.isComposite_eq_false_of_resolve {s : Schema} {ref : TypeRef} {t : ResolvedType}
    (h : s.resolve ref = .ok t)
    (hinput : ∀ d, s.get? ref.innermost = some d → d.kind.isInput = true) :
    t.isComposite = false := by
  obtain ⟨-, -, d, hget, hheart⟩ := resolve_spec h
  rw [ResolvedType.isComposite, ResolvedType.innermostKind, hheart]
  exact TypeKind.isComposite_eq_false (hinput d hget)

namespace EmissionContext

variable {x : EmissionContext} {u : UsedTypes} {r s t : Session}

/-- Properties note scalars, and the names in them are known. -/
structure Lists (x : EmissionContext) (u : UsedTypes) (ps : List Property) (s t : Session) :
    Prop where
  notes : x.Notes ps s t
  named : ∀ p ∈ ps, ∀ name ∈ p.type.names, x.Knows u t.unmapped name

theorem Lists.nil : x.Lists u [] s s where
  notes := .of_unmapped_eq rfl
  named := by simp

theorem Lists.cons {p : Property} {ps : List Property} (h : x.Lists u [p] r s)
    (h' : x.Lists u ps s t) : x.Lists u (p :: ps) r t where
  notes := h.notes.trans h'.notes
  named := by
    refine List.forall_mem_cons.2 ⟨fun name hname => ?_, h'.named⟩
    exact (h.named p (List.mem_singleton_self p) name hname).mono h'.notes.kept

/-- A declaration of properties without nested ones is grounded. -/
theorem Lists.grounds {ps : List Property} (h : x.Lists u ps s t) (name : String)
    (description? : Option String) :
    x.Notes (Declaration.propertiesAll [.build name description? (.object { properties := ps }) []])
        s t ∧
      ∀ e ∈ Declaration.flattenAll [.build name description? (.object { properties := ps }) []],
        x.Grounds u t.unmapped e := by
  have hproperties : (Declaration.build name description? (.object { properties := ps })
      []).properties = ps := List.append_nil ps
  rw [Declaration.propertiesAll_cons, Declaration.flattenAll_cons, hproperties]
  refine ⟨h.notes.mono (List.subset_append_left _ _), List.forall_mem_cons.2 ⟨⟨?_, ?_⟩, ?_⟩⟩
  · rw [hproperties]
    exact fun p hp n hn => .inl (h.named p hp n hn)
  · intro shape hshape fragment hfragment
    obtain rfl := List.mem_singleton.1 hshape
    cases hfragment
  · simp [Declaration.build, Declaration.nested, Declaration.flattenAll]

theorem lists_inputProperty {name : String} {type : ResolvedType} {description? : Option String}
    {p : Property} (haccounts : x.schema.Accounts u type) (hplain : type.isComposite = false)
    (h : (x.inputProperty name type description?).run s = (.ok p, t)) : x.Lists u [p] s t := by
  obtain ⟨e, r, htype, h⟩ := Emit.run_bind_eq_ok_iff.1 h
  obtain ⟨hexpr, rfl⟩ := Emit.typeExpr_of_run_eq_ok htype
  cases h
  have hmirror := Options.typeExpr_eq_mirror hexpr
  refine ⟨notes_noteScalar haccounts s hmirror, List.forall_mem_singleton.2 fun n hn => ?_⟩
  rw [hmirror] at hn
  exact knows_of_mem_names haccounts hplain hn

theorem lists_inputProperties {fs : List InputField} {ps : List Property}
    (hfs : ∀ f ∈ fs, ∀ type, x.schema.resolve f.type = .ok type →
      x.schema.Accounts u type ∧ type.isComposite = false)
    (h : (x.inputProperties fs).run s = (.ok ps, t)) : x.Lists u ps s t := by
  induction fs generalizing s ps with
  | nil =>
    cases h
    exact .nil
  | cons f fs ih =>
    obtain ⟨hf, hfs⟩ := List.forall_mem_cons.1 hfs
    rw [inputProperties] at h
    obtain ⟨type, r, htype, h⟩ := Emit.run_bind_eq_ok_iff.1 h
    obtain ⟨p, r', hp, h⟩ := Emit.run_bind_eq_ok_iff.1 h
    obtain ⟨ps', r'', hps, h⟩ := Emit.run_bind_eq_ok_iff.1 h
    cases h
    rw [Emit.run_ofExcept] at htype
    obtain ⟨hresolve, rfl⟩ := Prod.mk.inj htype
    obtain ⟨haccounts, hplain⟩ := hf type (CompilationInput.lift_eq_ok_iff.1 hresolve)
    exact (lists_inputProperty haccounts hplain hp).cons (ih hfs hps)

theorem lists_variableProperties {vs : List Variable} {ps : List Property}
    (hvs : ∀ v ∈ vs, x.schema.Accounts u v.type ∧ v.type.isComposite = false)
    (h : (x.variableProperties vs).run s = (.ok ps, t)) : x.Lists u ps s t := by
  induction vs generalizing s ps with
  | nil =>
    cases h
    exact .nil
  | cons v vs ih =>
    obtain ⟨⟨haccounts, hplain⟩, hvs⟩ := List.forall_mem_cons.1 hvs
    rw [variableProperties] at h
    obtain ⟨p, r, hp, h⟩ := Emit.run_bind_eq_ok_iff.1 h
    obtain ⟨ps', r', hps, h⟩ := Emit.run_bind_eq_ok_iff.1 h
    cases h
    exact (lists_inputProperty haccounts hplain hp).cons (ih hvs hps)

end EmissionContext

/-- The fields of input objects that are used, and variables, have no composite types. -/
structure Compilation.TakesInputs (c : Compilation) : Prop where
  fields : ∀ name ∈ c.typesUsed, ∀ d, c.schema.get? name = some (.inputObject d) →
    ∀ f ∈ d.fields, ∀ type, c.schema.resolve f.type = .ok type → type.isComposite = false
  vars : ∀ o ∈ c.operations, ∀ v ∈ o.vars, v.type.isComposite = false

/-- A valid schema and variables of input types are enough. -/
theorem takesInputs_of_compile {schema : Schema} {document : Document} {o : Options}
    {c : Compilation} (hvalid : schema.validate = .ok ())
    (hvars : ∀ operation ∈ document.operations, ∀ v ∈ operation.vars, ∀ d,
      schema.get? v.type.innermost = some d → d.kind.isInput = true)
    (h : compile schema document o = .ok c) : c.TakesInputs := by
  obtain ⟨rfl, hoperations⟩ := operations_of_compile h
  refine ⟨?_, ?_⟩
  · intro name _ d hget f hf type htype
    refine Schema.isComposite_eq_false_of_resolve htype fun e he => ?_
    obtain ⟨-, e', he', hinput⟩ := Schema.input_of_validate hvalid hget hf
    obtain rfl := Option.some.inj (he.symm.trans he')
    exact hinput
  · intro operation hoperation v hv
    obtain ⟨node, hnode, -, hresolved⟩ := exists_mem_of_forall₂ hoperations hoperation
    obtain ⟨n, hn, hresolve⟩ := hresolved v hv
    exact Schema.isComposite_eq_false_of_resolve hresolve (hvars node hnode n hn)

/-! ## One declaration -/

/-- What declarations are generated from is covered. -/
theorem Compilation.Grounds.coversFits {c : Compilation} {set : SelectionSet} (h : c.Grounds set)
    (hwell : set.All Field.WellTyped) (o : Options) :
    (c.emissionContext o).collector.Covers ((c.emissionContext o).Fits c.typesUsed)
      set.selections where
  all := SelectionSet.all_iff.1 (hwell.and h.accounted)
  holds := h.held

namespace Expected

variable {c : Compilation} {o : Options} {levels : SelectionSet → Nat} {s t : Session}

/-- **One declaration** is grounded, with all those inside, and notes scalars. -/
theorem grounds_declaration (hsound : c.Sound) (hinputs : c.TakesInputs)
    (hwell : ∀ e ∈ c.expected, ∀ set ∈ e.set?, set.All Field.WellTyped)
    {e : Expected} (he : e ∈ c.expected) {d : Declaration}
    (h : (e.declaration (c.emissionContext o) levels).run s = (.ok d, t)) :
    (c.emissionContext o).Notes (Declaration.propertiesAll [d]) s t ∧
      ∀ e ∈ Declaration.flattenAll [d], (c.emissionContext o).Grounds c.typesUsed t.unmapped e := by
  have hfragments : ∀ g ∈ (c.emissionContext o).fragments,
      (c.emissionContext o).collector.Covers ((c.emissionContext o).Fits c.typesUsed)
        g.set.selections := fun g hg => (hsound.fragments g hg).coversFits
    (hwell _ (Compilation.fragment_mem_expected.2 hg) g.set rfl) o
  have hset : ∀ {n : Nat} {name : String} {set : SelectionSet}, e.set? = some set →
      ((c.emissionContext o).topLevelWithin n name none set).run s = (.ok d, t) →
        (c.emissionContext o).Notes (Declaration.propertiesAll [d]) s t ∧
          ∀ e ∈ Declaration.flattenAll [d],
            (c.emissionContext o).Grounds c.typesUsed t.unmapped e := by
    intro n name set hset hrun
    obtain ⟨r, hbuilds, rfl⟩ := exists_builds_of_topLevelWithin hrun
    obtain ⟨hnotes, hgrounds⟩ := hbuilds.grounds hfragments
      ((hsound.grounds_of_set? he hset).coversFits (hwell e he set hset) o)
    exact ⟨hnotes.congr rfl rfl, hgrounds⟩
  cases e with
  | input typeName =>
    rw [Compilation.input_mem_expected] at he
    rw [declaration] at h
    split at h
    · rename_i definition hget
      cases h
      refine ⟨.of_unmapped_eq rfl, List.forall_mem_singleton.2 ⟨?_, ?_⟩⟩
      · intro p hp
        cases hp
      · intro shape hshape
        cases hshape
    · rename_i definition hget
      obtain ⟨ps, r, hps, h⟩ := Emit.run_bind_eq_ok_iff.1 h
      cases h
      refine (EmissionContext.lists_inputProperties (fun f hf type htype => ?_) hps).grounds _ _
      refine ⟨?_, hinputs.fields typeName he definition hget f hf type htype⟩
      rcases hsound.gathered.closed typeName he definition hget f hf with
        hahead | ⟨type', htype', haccounts⟩
      · cases hahead
      · obtain rfl := Except.ok.inj (htype.symm.trans htype')
        exact haccounts
    · cases h
  | vars operation =>
    rw [Compilation.vars_mem_expected] at he
    obtain ⟨ps, r, hps, h⟩ := Emit.run_bind_eq_ok_iff.1 h
    cases h
    exact (EmissionContext.lists_variableProperties (fun v hv =>
      ⟨hsound.vars operation he.1 v hv, hinputs.vars operation he.1 v hv⟩) hps).grounds _ _
  | result operation => exact hset rfl h
  | fragment f => exact hset rfl h

end Expected

/-! ## All declarations -/

/-- A run without errors builds everything that is expected. -/
theorem Generates.names_eq {x : EmissionContext} {levels : SelectionSet → Nat}
    {es : List Expected} {s t : Session} {ds : List Declaration}
    (h : Generates x levels es s ds [] t) :
    ds.map Declaration.name = es.map Expected.name := by
  generalize herrs : ([] : List GenerationError) = errs at h
  induction h with
  | nil => rfl
  | built hd _ ih => rw [List.map_cons, List.map_cons, ih herrs, Expected.name_of_declaration hd]
  | failed => cases herrs

/-- **A run without errors** builds declarations that are grounded, and notes the scalars to which
they refer. -/
theorem Generates.grounds {c : Compilation} {o : Options} {levels : SelectionSet → Nat}
    (hsound : c.Sound) (hinputs : c.TakesInputs)
    (hwell : ∀ e ∈ c.expected, ∀ set ∈ e.set?, set.All Field.WellTyped)
    {es : List Expected} (hes : es ⊆ c.expected) {s t : Session} {ds : List Declaration}
    (h : Generates (c.emissionContext o) levels es s ds [] t) :
    (c.emissionContext o).Notes (Declaration.propertiesAll ds) s t ∧
      ∀ e ∈ Declaration.flattenAll ds, (c.emissionContext o).Grounds c.typesUsed t.unmapped e := by
  generalize herrs : ([] : List GenerationError) = errs at h
  induction h with
  | nil => exact ⟨.of_unmapped_eq rfl, by simp [Declaration.flattenAll]⟩
  | @built e es r s t d ds errs hd _ ih =>
    obtain ⟨he, hes⟩ := List.cons_subset.1 hes
    obtain ⟨hnotes, hgrounds⟩ := Expected.grounds_declaration hsound hinputs hwell he hd
    obtain ⟨hrest, hgrounds'⟩ := ih hes herrs
    have hqueued : (c.emissionContext o).Notes [] r (r.enqueue d) :=
      .of_unmapped_eq (r.enqueue_unmapped d)
    rw [← List.singleton_append, Declaration.propertiesAll_append, Declaration.flattenAll_append]
    refine ⟨hnotes.trans (hqueued.trans hrest),
      List.forall_mem_append.2 ⟨fun e he => ?_, hgrounds'⟩⟩
    exact (hgrounds e he).mono (List.Subset.trans hqueued.kept hrest.kept)
  | failed => cases herrs

/-! ## The output -/

/-- All references in an output lead somewhere, and all that is nested or reported is referred to.
A name in a property is a keyword, or a custom scalar with the prefix, which is reported once, or
the name of a declaration; a fragment that is taken in is declared at the top level. -/
structure Output.Connected (schema : Schema) (o : Options) (out : Output) : Prop where
  named : ∀ d ∈ Declaration.flattenAll out.declarations, ∀ p ∈ d.properties, ∀ name ∈ p.type.names,
    name ∈ o.targetSyntax.typeKeywords ∨
      (∃ scalar, schema.IsCustomScalar scalar ∧ out.unresolved.count scalar = 1 ∧
        name = o.customScalarPrefix ++ scalar) ∨
      name ∈ declaredNames out.declarations
  spreads : ∀ d ∈ Declaration.flattenAll out.declarations, ∀ shape ∈ d.body.shapes,
    ∀ fragment ∈ shape.spreads, fragment ∈ out.declarations.map Declaration.name
  nested : ∀ d ∈ Declaration.flattenAll out.declarations, ∀ e ∈ d.nested,
    ∃ p ∈ d.properties, e.name ∈ p.type.names
  scalars : ∀ scalar ∈ out.unresolved, ∃ d ∈ Declaration.flattenAll out.declarations,
    ∃ p ∈ d.properties, o.customScalarPrefix ++ scalar ∈ p.type.names

/-- **No reference dangles.**  In a valid schema, if the variables of a document have input types
and nothing fails, all references in the output lead somewhere, and all that is nested or reported
is referred to. -/
theorem connected_of_generate {schema : Schema} {document : Document} {o : Options} {out : Output}
    (hvars : ∀ operation ∈ document.operations, ∀ v ∈ operation.vars, ∀ d,
      schema.get? v.type.innermost = some d → d.kind.isInput = true)
    (h : generate schema document o = .ok out) (hfailures : out.failures = []) :
    out.Connected schema o := by
  obtain ⟨hvalid, c, hcompile, h⟩ := generate_eq_ok_iff.1 h
  have hsound := sound_of_compile hcompile
  have hinputs := takesInputs_of_compile hvalid hvars hcompile
  obtain ⟨t, hrun, hunresolved, -⟩ := Compilation.generates_of_generate h
  obtain ⟨-, hlinked⟩ := hrun.links (c.openSession_scope o)
  rw [hfailures] at hrun
  obtain ⟨hnotes, hgrounds⟩ := hrun.grounds hsound hinputs
    (Compilation.wellTyped_of_mem_expected hcompile) (List.Subset.refl _)
  obtain rfl : c.schema = schema := (operations_of_compile hcompile).1
  have hscalar : ∀ scalar ∈ out.unresolved, c.schema.IsCustomScalar scalar ∧
      ∃ p ∈ Declaration.propertiesAll out.declarations,
        o.customScalarPrefix ++ scalar ∈ p.type.names := by
    intro scalar hscalar
    exact (hnotes.referred scalar (hunresolved ▸ hscalar)).resolve_left List.not_mem_nil
  have hexpected : ∀ e ∈ c.expected, e.name ∈ out.declarations.map Declaration.name := by
    intro e he
    rw [hrun.names_eq]
    exact List.mem_map_of_mem he
  refine ⟨fun d hd p hp name hname => ?_, fun d hd shape hshape fragment hfragment => ?_,
    fun d hd e he => ?_, fun scalar hmem => ?_⟩
  · rcases (hgrounds d hd).named p hp name hname with
      (hkeyword | ⟨scalar, hmem, rfl⟩ | hused) | hnested
    · exact .inl hkeyword
    · rw [← hunresolved] at hmem
      refine .inr (.inl ⟨scalar, (hscalar scalar hmem).1, ?_, rfl⟩)
      rw [hunresolved] at hmem ⊢
      exact List.count_eq_one_of_mem (hnotes.nodup .nil) hmem
    · obtain ⟨e, he, hename⟩ :=
        List.mem_map.1 (hexpected _ (Compilation.input_mem_expected.2 hused))
      obtain rfl : e.name = name := hename
      exact .inr (.inr (name_mem_declaredNames he))
    · obtain ⟨e, he, rfl⟩ := List.mem_map.1 hnested
      exact .inr (.inr (List.mem_map_of_mem (Declaration.mem_flattenAll_of_mem_nested he _ hd)))
  · obtain ⟨f, hf, rfl⟩ := List.mem_map.1 ((hgrounds d hd).spreads shape hshape fragment hfragment)
    exact hexpected _ (Compilation.fragment_mem_expected.2 hf)
  · obtain ⟨outer, houter, hinside⟩ := Declaration.mem_flattenAll.1 hd
    obtain ⟨p, hp, hnames, -⟩ := hlinked outer houter d hinside e he
    exact ⟨p, hp, hnames ▸ List.mem_singleton_self _⟩
  · obtain ⟨p, hp, hname⟩ := (hscalar scalar hmem).2
    obtain ⟨d, hd, hp⟩ := List.mem_flatMap.1 hp
    exact ⟨d, hd, p, hp, hname⟩

/-! ## A date -/

/-- A schema with a custom scalar. -/
def advisory : Schema :=
  Schema.ofQueryType "Query"
    |>.define (.scalar { name := "Date" })
    |>.define (.object { name := "Advice", fields := [{ name := "since", type := .named "Date" }] })
    |>.define (.object
      { name := "Query", fields := [{ name := "advice", type := .named "Advice" }] })

/-- A query with a variable, which takes in a fragment with a nested selection. -/
def asking : Document where
  operations := [{
    name := "Ask"
    operationType := "query"
    vars := [{ name := "since", type := .named "Date" }]
    selections := [.spread "Tip"] }]
  fragments := [{
    name := "Tip"
    typeCondition := "Query"
    selections := [.field "advice" none [.field "since" none []]] }]

/-- Spreads are not merged. -/
def declaring : Options := { mergesFragments := false }

/-- What is built for the query does not depend on what the printer holds. -/
theorem exists_runs_asking :
    ∃ c, compile advisory asking declaring = .ok c ∧ ∃ e₁ e₂ e₃, c.expected = [e₁, e₂, e₃] ∧
      c.expected.map Expected.name = ["AskQueryVariables", "AskQuery", "Tip"] ∧
      ∃ names, ({} : NameRegistry).insertAll ["AskQueryVariables", "AskQuery", "Tip"] = names ∧
        ∃ x, c.emissionContext declaring = x ∧ ∃ d₁ d₂ d₃ names', (∀ p : Printer, p.scope = [] →
          (e₁.declaration x x.levelsFor).run ⟨names, [], p⟩ = (.ok d₁, ⟨names, ["Date"], p⟩) ∧
          (e₂.declaration x x.levelsFor).run ⟨names, ["Date"], p⟩
            = (.ok d₂, ⟨names, ["Date"], p⟩) ∧
          (e₃.declaration x x.levelsFor).run ⟨names, ["Date"], p⟩
            = (.ok d₃, ⟨names', ["Date"], p⟩)) ∧
          declaredNames [d₁, d₂, d₃] = ["AskQueryVariables", "AskQuery", "Tip", "Tip_advice"] :=
  ⟨_, by cbv, _, _, _, by cbv, by cbv, ⟨["Tip", "AskQuery", "AskQueryVariables"]⟩, by decide,
    _, rfl, _, _, _, _, fun ⟨_, _, _, _, _, _⟩ hscope => by
      cases hscope
      exact ⟨by cbv, by cbv, by cbv⟩, rfl⟩

theorem exists_generate_asking :
    ∃ out, generate advisory asking declaring = .ok out ∧ out.failures = [] ∧
      out.unresolved = ["Date"] ∧
      declaredNames out.declarations = ["AskQueryVariables", "AskQuery", "Tip", "Tip_advice"] := by
  obtain ⟨c, hcompile, e₁, e₂, e₃, hexpected, hnames, names, htaken, x, hx, d₁, d₂, d₃, names',
    hrun, hdeclared⟩ := exists_runs_asking
  obtain ⟨p, hp, hopen⟩ :
      ∃ p : Printer, p.scope = [] ∧ c.openSession declaring = ⟨names, [], p⟩ := by
    refine ⟨_, c.openSession_scope declaring, ?_⟩
    rw [← htaken, ← hnames]
    rfl
  obtain ⟨h₁, -, -⟩ := hrun p hp
  obtain ⟨queue, hqueue⟩ : ∃ queue,
      Session.enqueue ⟨names, ["Date"], p⟩ d₁ = ⟨names, ["Date"], { p with queue }⟩ :=
    ⟨_, Session.enqueue_eq _ _⟩
  obtain ⟨-, h₂, -⟩ := hrun { p with queue } hp
  obtain ⟨queue', hqueue'⟩ : ∃ queue', Session.enqueue ⟨names, ["Date"], { p with queue }⟩ d₂
      = ⟨names, ["Date"], { p with queue := queue' }⟩ := ⟨_, Session.enqueue_eq _ _⟩
  obtain ⟨-, -, h₃⟩ := hrun { p with queue := queue' } hp
  obtain ⟨text, hgenerate⟩ : ∃ text, c.generate declaring = .ok
      { declarations := [d₁, d₂, d₃], text, diagnostics := [.unresolvedScalar "Date"] } := by
    rw [Compilation.generate, Compilation.generateWithin, hexpected, hx, hopen]
    simp only [generateAll, h₁, hqueue, h₂, hqueue', h₃]
    exact ⟨_, rfl⟩
  have hvalid : advisory.validate = .ok () := by cbv
  exact ⟨_, generate_eq_ok_iff.2 ⟨hvalid, c, hcompile, hgenerate⟩, rfl, rfl, hdeclared⟩

/-- The date is reported, and the advice is nested. -/
theorem connected_of_generate_asking :
    (∀ operation ∈ asking.operations, ∀ v ∈ operation.vars, ∀ d,
        advisory.get? v.type.innermost = some d → d.kind.isInput = true) ∧
      ∃ out, generate advisory asking declaring = .ok out ∧ out.failures = [] ∧
        out.unresolved = ["Date"] ∧
        declaredNames out.declarations = ["AskQueryVariables", "AskQuery", "Tip", "Tip_advice"] ∧
        out.Connected advisory declaring := by
  have hdate : advisory.get? "Date" = some (.scalar { name := "Date" }) := by cbv
  have hvars : ∀ operation ∈ asking.operations, ∀ v ∈ operation.vars, ∀ d,
      advisory.get? v.type.innermost = some d → d.kind.isInput = true := by
    simp [asking, TypeRef.innermost, hdate, TypeDefinition.kind, TypeKind.isInput]
  obtain ⟨out, hgenerate, hfailures, hunresolved, hdeclared⟩ := exists_generate_asking
  exact ⟨hvars, out, hgenerate, hfailures, hunresolved, hdeclared,
    connected_of_generate hvars hgenerate hfailures⟩

end ResponseTypes
