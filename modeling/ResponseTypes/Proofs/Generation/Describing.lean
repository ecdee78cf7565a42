import ResponseTypes.Generation
import ResponseTypes.Proofs.Emission.Selections

/-!
# Generated declarations describe what they are generated from

A generation goes over what is expected, and adds a declaration to the output for everything that
can be built.  What fails on the way leaves names behind, but never gives one back.  So the names
claimed for nested declarations differ from each other, over the whole run, and from the names that
were taken before it; and each declaration of a result or a fragment describes its selection set.

## What is here

* `Expected.respects_declaration`, `Expected.declaration_spec` — one declaration.
* `generateAll_spec` — all of them; `Compilation.declared_once` — their names.
* `Compilation.generate_describes` — the output of a compiled document.
-/

set_option autoImplicit false

namespace ResponseTypes

/-! ## Declarations of inputs -/

namespace EmissionContext

variable {x : EmissionContext} {R : Session → Session → Prop} (hR : Session.TracksTypes R)

include hR

theorem respects_inputProperty (name : String) (t : ResolvedType) (description? : Option String) :
    Emit.Respects R (x.inputProperty name t description?) :=
  .bind hR (.typeExpr hR _ _ _) fun _ => .pure hR _

theorem respects_inputDeclaration (d : InputObjectDefinition) :
    Emit.Respects R (x.inputDeclaration d) := by
  have hproperties : ∀ fs, Emit.Respects R (x.inputProperties fs) := by
    intro fs
    induction fs with
    | nil => exact .pure hR _
    | cons f fs ih =>
      exact .bind hR (.ofExcept hR _) fun _ => .bind hR (respects_inputProperty hR _ _ _) fun _ =>
        .bind hR ih fun _ => .pure hR _
  exact .bind hR (hproperties _) fun _ => .pure hR _

theorem respects_variablesDeclaration (o : Operation) :
    Emit.Respects R (x.variablesDeclaration o) := by
  have hproperties : ∀ vs, Emit.Respects R (x.variableProperties vs) := by
    intro vs
    induction vs with
    | nil => exact .pure hR _
    | cons v vs ih =>
      exact .bind hR (respects_inputProperty hR _ _ _) fun _ => .bind hR ih fun _ => .pure hR _
  exact .bind hR (hproperties _) fun _ => .pure hR _

end EmissionContext

/-! ## One declaration -/

namespace Expected

variable {x : EmissionContext} {levels : SelectionSet → Nat}

/-- The selection set that a declaration is to describe, if it is that of a result or a fragment. -/
def set? : Expected → Option SelectionSet
  | .input _ => none
  | .vars _ => none
  | .result o => some o.set
  | .fragment f => some f.set

/-- **What no step changes, no declaration changes**, whether it can be built or not. -/
theorem respects_declaration {R : Session → Session → Prop} (hR : Session.Tracks R)
    (e : Expected) : Emit.Respects R (e.declaration x levels) := by
  cases e with
  | input typeName =>
    rw [declaration]
    split
    · exact .pure hR.types _
    · exact EmissionContext.respects_inputDeclaration hR.types _
    · exact .throw hR.types _
  | vars o => exact EmissionContext.respects_variablesDeclaration hR.types o
  | result o => exact .inScope hR _ (EmissionContext.respects_declarationWithin hR _ _ _ _)
  | fragment f => exact .inScope hR _ (EmissionContext.respects_declarationWithin hR _ _ _ _)

theorem keeps_declaration (e : Expected) : Emit.Keeps (e.declaration x levels) :=
  e.respects_declaration Session.tracks_taken

/-- No declaration prints anything while it is built. -/
theorem printer_of_run_declaration {e : Expected} {s t : Session}
    {r : Except GenerationError Declaration} (h : (e.declaration x levels).run s = (r, t)) :
    t.printer = s.printer := by
  have hprinter : ((e.declaration x levels).run s).2.printer = s.printer :=
    e.respects_declaration Session.tracks_printer s
  rwa [h] at hprinter

theorem restores_declaration (e : Expected) : Emit.Restores (e.declaration x levels) :=
  fun s => congrArg Printer.scope (e.respects_declaration Session.tracks_printer s)

/-- The declaration of an enum or an input object has its name, and none inside. -/
theorem input_declaration_spec {typeName : String} {s t : Session} {d : Declaration}
    (h : ((input typeName).declaration x levels).run s = (.ok d, t)) :
    d.name = typeName ∧ d.nested = [] := by
  have hname : ∀ definition, x.schema.get? typeName = some definition →
      definition.name = typeName := by
    intro definition hget
    exact Schema.name_of_get? hget
  rw [declaration] at h
  split at h
  · rename_i definition hget
    cases h
    exact ⟨hname _ hget, rfl⟩
  · rename_i definition hget
    rw [EmissionContext.inputDeclaration] at h
    obtain ⟨properties, r, -, h⟩ := Emit.run_bind_eq_ok_iff.1 h
    cases h
    exact ⟨hname _ hget, rfl⟩
  · cases h

theorem vars_declaration_spec {o : Operation} {s t : Session} {d : Declaration}
    (h : ((vars o).declaration x levels).run s = (.ok d, t)) :
    d.name = o.variablesTypeName ∧ d.nested = [] := by
  rw [declaration, EmissionContext.variablesDeclaration] at h
  obtain ⟨properties, r, -, h⟩ := Emit.run_bind_eq_ok_iff.1 h
  cases h
  exact ⟨rfl, rfl⟩

/-- The declaration of a selection set has the name it is given, and describes the set. -/
theorem topLevelWithin_spec (hfragments : ∀ f ∈ x.fragments, f.set.All Field.WellTyped)
    {n : Nat} {name : String} {set : SelectionSet} (hset : set.All Field.WellTyped) {s t : Session}
    {d : Declaration} (h : (x.topLevelWithin n name none set).run s = (.ok d, t)) :
    d.name = name ∧ s.Claims (declaredNames d.nested) t ∧ x.Explains d set := by
  obtain ⟨r, hrun, rfl⟩ := Emit.exists_of_run_inScope_eq_ok h
  obtain ⟨hname, hclaims, hexplains⟩ :=
    EmissionContext.declarationWithin_spec hfragments _ hset hrun
  exact ⟨hname, hclaims.congr (s.pushScope_names name).symm (Session.popScope_names r), hexplains⟩

/-- **One declaration** has the expected name and describes its selection set, and the names inside
have been claimed for it. -/
theorem declaration_spec (hfragments : ∀ f ∈ x.fragments, f.set.All Field.WellTyped)
    {e : Expected} (he : ∀ set ∈ e.set?, set.All Field.WellTyped) {s t : Session} {d : Declaration}
    (h : (e.declaration x levels).run s = (.ok d, t)) :
    d.name = e.name ∧ s.Claims (declaredNames d.nested) t ∧ ∀ set ∈ e.set?, x.Explains d set := by
  have hkept : s.names.taken ⊆ t.names.taken := e.keeps_declaration.subset_of_run h
  cases e with
  | input typeName =>
    obtain ⟨hname, hnested⟩ := input_declaration_spec h
    rw [hnested]
    exact ⟨hname, .of_kept hkept, by simp [set?]⟩
  | vars o =>
    obtain ⟨hname, hnested⟩ := vars_declaration_spec h
    rw [hnested]
    exact ⟨hname, .of_kept hkept, by simp [set?]⟩
  | result o =>
    obtain ⟨hname, hclaims, hexplains⟩ := topLevelWithin_spec hfragments (he _ rfl) h
    refine ⟨hname, hclaims, ?_⟩
    rintro set ⟨⟩
    exact hexplains
  | fragment f =>
    obtain ⟨hname, hclaims, hexplains⟩ := topLevelWithin_spec hfragments (he _ rfl) h
    refine ⟨hname, hclaims, ?_⟩
    rintro set ⟨⟩
    exact hexplains

end Expected

/-! ## All declarations -/

/-- The names declared inside declarations. -/
def nestedNames (ds : List Declaration) : List String :=
  ds.flatMap fun d => declaredNames d.nested

theorem count_declaredNames (ds : List Declaration) (name : String) :
    (declaredNames ds).count name
      = (ds.map Declaration.name).count name + (nestedNames ds).count name := by
  induction ds with
  | nil => rfl
  | cons d ds ih =>
    rw [declaredNames_cons, List.map_cons, nestedNames, List.flatMap_cons, ← nestedNames,
      List.count_cons, List.count_cons, List.count_append, List.count_append, ih]
    omega

/-- **All declarations**: those that can be built follow in the order in which they are expected,
and all names inside them have been claimed. -/
theorem generateAll_spec {x : EmissionContext} {levels : SelectionSet → Nat}
    (hfragments : ∀ f ∈ x.fragments, f.set.All Field.WellTyped) {es : List Expected}
    (hes : ∀ e ∈ es, ∀ set ∈ e.set?, set.All Field.WellTyped) {s t : Session} {out out' : Output}
    (h : generateAll x levels es s out = .ok (t, out')) :
    ∃ ds emitted, out'.declarations = out.declarations ++ ds ∧ emitted.Sublist es ∧
      s.Claims (nestedNames ds) t ∧
      List.Forall₂ (fun d e => d.name = e.name ∧ ∀ set ∈ e.set?, x.Explains d set) ds emitted := by
  induction es generalizing s out with
  | nil =>
    cases h
    exact ⟨[], [], (List.append_nil _).symm, .slnil, .of_names_eq rfl, .nil⟩
  | cons e es ih =>
    obtain ⟨he, hes⟩ := List.forall_mem_cons.1 hes
    rw [generateAll] at h
    split at h
    · rename_i d r hd
      obtain ⟨hname, hclaims, hexplains⟩ := Expected.declaration_spec hfragments he hd
      obtain ⟨ds, emitted, hdeclarations, hsublist, hclaims', hall⟩ := ih hes h
      refine ⟨d :: ds, e :: emitted, ?_, hsublist.cons_cons e, ?_, .cons ⟨hname, hexplains⟩ hall⟩
      · rw [hdeclarations, List.append_assoc, List.singleton_append]
      · exact hclaims.trans (hclaims'.congr rfl rfl)
    · rename_i err r hd
      simp only at h
      split at h
      · cases h
      · obtain ⟨ds, emitted, hdeclarations, hsublist, hclaims, hall⟩ := ih hes h
        have hkept : s.names.taken ⊆ r.names.taken := e.keeps_declaration.subset_of_run hd
        exact ⟨ds, emitted, hdeclarations, hsublist.cons e,
          (Session.Claims.of_kept hkept).trans hclaims, hall⟩

/-! ## The output -/

/-- The names that are expected are taken before the first declaration is built. -/
theorem Compilation.mem_taken_openSession {c : Compilation} {o : Options} {e : Expected}
    (he : e ∈ c.expected) : e.name ∈ (c.openSession o).names.taken :=
  NameRegistry.mem_taken_insertAll.2 (.inl (List.mem_map_of_mem he))

/-- **Names that are claimed are declared once**, if all that is expected was taken before, and they
are none of the expected names. -/
theorem Compilation.declared_once {c : Compilation} {o : Options} {t : Session}
    {ds : List Declaration} (hclaims : (c.openSession o).Claims (nestedNames ds) t)
    {emitted : List Expected} (hsublist : emitted.Sublist c.expected)
    (hnames : ds.map Declaration.name = emitted.map Expected.name) :
    ∀ name ∈ nestedNames ds, (declaredNames ds).count name = 1 ∧
      name ∉ c.expected.map Expected.name := by
  intro name hname
  have hfree : name ∉ c.expected.map Expected.name := by
    intro hexpected
    obtain ⟨e, he, rfl⟩ := List.mem_map.1 hexpected
    exact hclaims.free _ hname (mem_taken_openSession he)
  have htop : name ∉ ds.map Declaration.name := by
    rw [hnames]
    exact fun hmem => hfree ((hsublist.map _).subset hmem)
  refine ⟨?_, hfree⟩
  rw [count_declaredNames, List.count_eq_zero_of_not_mem htop,
    List.count_eq_one_of_mem hclaims.nodup hname]

theorem Compilation.wellTyped_of_mem_expected {schema : Schema} {document : Document}
    {o : Options} {c : Compilation} (h : compile schema document o = .ok c) :
    ∀ e ∈ c.expected, ∀ set ∈ e.set?, set.All Field.WellTyped := by
  obtain ⟨hoperations, hfragments⟩ := all_wellTyped_of_compile h
  intro e he set hset
  rw [expected, List.mem_append, List.mem_append, List.mem_map, List.mem_flatMap, List.mem_map]
    at he
  rcases he with (⟨typeName, -, rfl⟩ | ⟨operation, hoperation, he⟩) | ⟨fragment, hfragment, rfl⟩
  · cases hset
  · rw [Expected.ofOperation] at he
    have hresult : e = .vars operation ∨ e = .result operation := by
      split at he
      · exact .inr (List.mem_singleton.1 he)
      · simpa using he
    rcases hresult with rfl | rfl
    · cases hset
    · cases hset
      exact hoperations operation hoperation
  · cases hset
    exact hfragments fragment hfragment

/-- **Generated declarations describe what they are generated from.**  The output of a compiled
document has a declaration for everything that could be built, in the order in which it is expected;
that of a result or a fragment describes its selection set. -/
theorem Compilation.generate_describes {schema : Schema} {document : Document}
    {compiled used : Options} {c : Compilation} {out : Output}
    (hcompile : compile schema document compiled = .ok c) (h : c.generate used = .ok out) :
    ∃ emitted, emitted.Sublist c.expected ∧
      List.Forall₂ (fun d e => d.name = e.name ∧
          ∀ set, e.set? = some set → (c.emissionContext used).Describes out.declarations d set)
        out.declarations emitted := by
  obtain ⟨⟨t, out'⟩, hall, h⟩ := bind_eq_ok_iff.1 h
  cases h
  obtain ⟨ds, emitted, hdeclarations, hsublist, hclaims, hds⟩ :=
    generateAll_spec (all_wellTyped_of_compile hcompile).2 (wellTyped_of_mem_expected hcompile) hall
  obtain rfl : out'.declarations = ds := hdeclarations
  have hnames : out'.declarations.map Declaration.name = emitted.map Expected.name := by
    rw [← List.forall₂_eq_eq_eq, List.forall₂_map_left_iff, List.forall₂_map_right_iff]
    exact hds.imp fun _ _ hd => hd.1
  have hinside : ∀ d ∈ out'.declarations, ∀ name ∈ declaredNames d.nested,
      (declaredNames out'.declarations).count name = 1 := fun d hd name hname =>
    (declared_once hclaims hsublist hnames name (List.mem_flatMap.2 ⟨d, hd, hname⟩)).1
  refine ⟨emitted, hsublist, ((List.forall₂_and_left _ _).2 ⟨hinside, hds⟩).imp ?_⟩
  rintro d e ⟨hcount, hname, hexplains⟩
  exact ⟨hname, fun set hset => hexplains set hset _ hcount⟩

/-! ## A herd -/

/-- Animals of two kinds, which give milk. -/
def animals : Schema :=
  let milk : FieldDefinition := { name := "milk", type := .list (.nonNull (.named "Milk")) }
  Schema.ofQueryType "Query"
    |>.define (.object { name := "Milk", fields := [{ name := "fat", type := .named "Float" }] })
    |>.define (.interface { name := "Animal", fields := [milk] })
    |>.define (.object { name := "Cow", fields := [milk], interfaces := ["Animal"] })
    |>.define (.object
      { name := "Goat", fields := [milk, { name := "age", type := .named "Int" }]
        interfaces := ["Animal"] })
    |>.define (.object
      { name := "Query", fields := [{ name := "animal", type := .named "Animal" }] })

/-- A fragment with two variants that make the same selections on the milk. -/
def herd : Document where
  fragments := [{
    name := "Herd"
    typeCondition := "Animal"
    selections := [
      .field "milk" none [.field "fat" none []],
      .inline (some "Goat") [.field "age" none []]] }]

/-- The variants of the herd share the declaration of the milk. -/
theorem generate_describes_herd :
    ∃ c out, compile animals herd {} = .ok c ∧ c.generate {} = .ok out ∧
      declaredNames out.declarations = ["Herd", "Herd_milk"] ∧
      ∃ emitted, emitted.Sublist c.expected ∧
        List.Forall₂ (fun d e => d.name = e.name ∧
            ∀ set, e.set? = some set → (c.emissionContext {}).Describes out.declarations d set)
          out.declarations emitted := by
  obtain ⟨c, hcompile, e, hexpected, d, t, hd, hnames⟩ :
      ∃ c, compile animals herd {} = .ok c ∧ ∃ e, c.expected = [e] ∧ ∃ d t,
        (e.declaration (c.emissionContext {}) (c.emissionContext {}).levelsFor).run
            (c.openSession {}) = (.ok d, t) ∧
          declaredNames [d] = ["Herd", "Herd_milk"] :=
    ⟨_, by cbv, _, by cbv, _, _, by cbv, rfl⟩
  obtain ⟨text, diagnostics, hgenerate⟩ : ∃ text diagnostics,
      c.generate {} = .ok { declarations := [d], text, diagnostics } := by
    rw [Compilation.generate, Compilation.generateWithin, hexpected, generateAll, hd]
    exact ⟨_, _, rfl⟩
  exact ⟨c, _, hcompile, hgenerate, hnames, Compilation.generate_describes hcompile hgenerate⟩

end ResponseTypes
