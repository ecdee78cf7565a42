import ResponseTypes.Proofs.Compilation.Tagging
import ResponseTypes.Proofs.Emission.Inside
import ResponseTypes.Proofs.Generation.Naming

/-!
# Unions in the output

When the compiler is told to ask for the name of the type everywhere, a reader of a response can
tell from it which shape of a union the response has: each shape requires the name of the type to be
one of some names, these differ from shape to shape, and no possible name is left out.  This holds
of every union in the output, since every declaration there describes a selection set that lies
below an expected one, unless it is that of an input.

## What is here

* `Discriminates`, and `EmissionContext.Describes.discriminates` — one declaration.
* `Compilation.exists_describes_of_mem_flattenAll` — what the declarations in an output describe.
* `Compilation.discriminates_of_generate` — all unions in an output.
-/

set_option autoImplicit false

namespace ResponseTypes

/-! ## One union -/

/-- The shapes of a union tell object types apart: each requires a property with the key of the type
name, whose type are the names of the object types of its variant; no object type is in two of the
variants, and all possible ones are in some. -/
structure Discriminates (possible : List String) (vs : List Variant) (shapes : List Shape) :
    Prop where
  tagged : List.Forall₂ (fun v s => ∃ p, s.property? typenameField = some p ∧
    p.isOptional = false ∧ p.type = .literals v.possible) vs shapes
  disjoint : vs.Pairwise fun v w => v.possible.Disjoint w.possible
  covers : ∀ object, (∃ v ∈ vs, object ∈ v.possible) ↔ object ∈ possible

theorem Body.eq_of_ofShapes_eq_union {shapes shapes' : List Shape}
    (h : ofShapes shapes = .union shapes') : shapes = shapes' ∧ shapes.length ≠ 1 := by
  unfold ofShapes at h
  split at h
  · cases h
  · rename_i hne
    cases h
    refine ⟨rfl, fun hlength => ?_⟩
    obtain ⟨shape, rfl⟩ := List.length_eq_one_iff.1 hlength
    exact hne shape rfl

/-- A shape has the property of the type name if its variant has one field of the key at least, and
all of them are narrowed. -/
theorem Options.RendersVariant.exists_property? {o : Options} {table : NestedTable} {v : Variant}
    {s : Shape} (h : o.RendersVariant table v s)
    (hexists : ∃ m ∈ v.fields, m.key = typenameField)
    (hnarrowed : ∀ m ∈ v.fields, m.key = typenameField → m.literals? = some v.possible) :
    ∃ p, s.property? typenameField = some p ∧ p.isOptional = false ∧
      p.type = .literals v.possible := by
  obtain ⟨m, hm, hkey⟩ := hexists
  obtain ⟨q, hq, hrenders⟩ := exists_mem_of_forall₂ h.2 hm
  obtain ⟨p, hp⟩ : ∃ p, s.property? typenameField = some p := by
    rw [← Option.isSome_iff_exists, Shape.property?, List.find?_isSome]
    exact ⟨q, hq, by rw [hrenders.name, hkey, beq_self_eq_true]⟩
  obtain ⟨n, hn, hrenders⟩ := exists_mem_of_forall₂ h.2.flip (List.mem_of_find?_eq_some hp)
  have hname : p.name = typenameField := by simpa using List.find?_some hp
  exact ⟨p, hp, hrenders.required,
    hrenders.narrowed _ (hnarrowed n hn (hrenders.name.symm.trans hname))⟩

/-- **A union tells object types apart** if the selection set it describes asks for the name of the
type and the key is kept for that. -/
theorem EmissionContext.Describes.discriminates {x : EmissionContext} {out : List Declaration}
    {d : Declaration} {set : SelectionSet} (h : x.Describes out d set) (hasks : set.AsksTypename)
    (hset : set.All Field.KeepsTypename)
    (hfragments : ∀ g ∈ x.fragments, g.set.All Field.KeepsTypename) {shapes : List Shape}
    (hunion : d.body = .union shapes) :
    ∃ vs, x.collector.variants set = .ok vs ∧ Discriminates set.possible vs shapes := by
  obtain ⟨table, hvariants, hbody, -, hshapes, -, -⟩ := h
  rename_i vs shapes'
  obtain ⟨rfl, hlength⟩ := Body.eq_of_ofShapes_eq_union (hbody.symm.trans hunion)
  -- A single variant would be an object type.
  have hseveral : ¬ (set.possible = [] ∨ set.isPolymorphic = false) := by
    intro hplain
    obtain ⟨object?, c, -, rfl⟩ := Collector.exists_variants_eq_singleton hplain hvariants
    exact hlength hshapes.length_eq.symm
  obtain ⟨hpossible, hpolymorphic⟩ := not_or.1 hseveral
  have hpolymorphic : set.isPolymorphic = true := by simpa using hpolymorphic
  have hexists := Collector.exists_typename_of_variants hpolymorphic hpossible hvariants hasks
  have hnarrowed :=
    Collector.literals?_of_variants hpolymorphic hpossible hvariants hset hfragments
  refine ⟨vs, hvariants, ?_, Collector.disjoint_of_variants hpolymorphic hpossible hvariants,
    fun _ => Collector.mem_possible_iff_of_variants hpolymorphic hpossible hvariants⟩
  have hboth : ∀ v ∈ vs, (∃ m ∈ v.fields, m.key = typenameField) ∧
      ∀ m ∈ v.fields, m.key = typenameField → m.literals? = some v.possible :=
    fun v hv => ⟨hexists v hv, hnarrowed v hv⟩
  refine ((List.forall₂_and_left _ _).2 ⟨hboth, hshapes⟩).imp ?_
  rintro v s ⟨⟨hv, hv'⟩, hrenders⟩
  exact hrenders.exists_property? hv hv'

/-! ## The declarations in an output -/

/-- The declaration of an input or of variables is no union. -/
theorem Expected.body_ne_union {x : EmissionContext} {levels : SelectionSet → Nat} {e : Expected}
    (he : e.set? = none) {s t : Session} {d : Declaration}
    (h : (e.declaration x levels).run s = (.ok d, t)) (shapes : List Shape) :
    d.body ≠ .union shapes := by
  intro hbody
  cases e with
  | input typeName =>
    rw [declaration] at h
    split at h
    · cases h
      cases hbody
    · rw [EmissionContext.inputDeclaration] at h
      obtain ⟨properties, r, -, h⟩ := Emit.run_bind_eq_ok_iff.1 h
      cases h
      cases hbody
    · cases h
  | vars o =>
    rw [declaration, EmissionContext.variablesDeclaration] at h
    obtain ⟨properties, r, -, h⟩ := Emit.run_bind_eq_ok_iff.1 h
    cases h
    cases hbody
  | result o => cases he
  | fragment f => cases he

/-- Declarations of an input or of variables have none inside. -/
theorem Expected.nested_eq_nil {x : EmissionContext} {levels : SelectionSet → Nat} {e : Expected}
    (he : e.set? = none) {s t : Session} {d : Declaration}
    (h : (e.declaration x levels).run s = (.ok d, t)) : d.nested = [] := by
  cases e with
  | input typeName => exact (input_declaration_spec h).2
  | vars o => exact (vars_declaration_spec h).2
  | result o => cases he
  | fragment f => cases he

/-- All that is inside a declaration explains a selection set below the expected one. -/
theorem Expected.exists_explains {x : EmissionContext} {levels : SelectionSet → Nat} {e : Expected}
    {top : SelectionSet} (he : e.set? = some top)
    (hfragments : ∀ f ∈ x.fragments, f.set.All Field.WellTyped)
    (htop : top.All Field.WellTyped) {s t : Session} {d : Declaration}
    (h : (e.declaration x levels).run s = (.ok d, t)) :
    ∀ d' ∈ d.flatten, ∃ set, x.collector.Reaches top set ∧ x.Explains d' set := by
  have hinside : ∀ {n : Nat} {name : String},
      (x.topLevelWithin n name none top).run s = (.ok d, t) →
        ∀ d' ∈ d.flatten, ∃ set, x.collector.Reaches top set ∧ x.Explains d' set := by
    intro n name hrun
    obtain ⟨r, hrun, -⟩ := Emit.exists_of_run_inScope_eq_ok hrun
    exact EmissionContext.exists_explains_of_run hfragments _ htop hrun
  cases e with
  | input typeName => cases he
  | vars o => cases he
  | result o =>
    cases he
    exact hinside h
  | fragment f =>
    cases he
    exact hinside h

/-- A declaration in the output of a run is that of something expected. -/
theorem Generates.exists_of_mem {x : EmissionContext} {levels : SelectionSet → Nat}
    {es : List Expected} {s t : Session} {ds : List Declaration} {errs : List GenerationError}
    (h : Generates x levels es s ds errs t) :
    ∀ d ∈ ds, ∃ e ∈ es, ∃ r r', (e.declaration x levels).run r = (.ok d, r') := by
  induction h with
  | nil => simp
  | built hd _ ih =>
    refine List.forall_mem_cons.2 ⟨⟨_, List.mem_cons_self, _, _, hd⟩, fun d hmem => ?_⟩
    obtain ⟨e, he, hrun⟩ := ih d hmem
    exact ⟨e, List.mem_cons_of_mem _ he, hrun⟩
  | failed _ _ _ ih =>
    intro d hmem
    obtain ⟨e, he, hrun⟩ := ih d hmem
    exact ⟨e, List.mem_cons_of_mem _ he, hrun⟩

namespace Compilation

variable {schema : Schema} {document : Document} {compiled used : Options} {c : Compilation}
  {out : Output}

theorem contains_of_mem_expected {e : Expected} (he : e ∈ c.expected) {set : SelectionSet}
    (hset : e.set? = some set) : c.Contains set := by
  cases e with
  | input typeName => cases hset
  | vars o => cases hset
  | result o =>
    cases hset
    exact .inl ⟨o, result_mem_expected.1 he, .refl⟩
  | fragment f =>
    cases hset
    exact .inr ⟨f, fragment_mem_expected.1 he, .refl⟩

/-- **What the declarations in an output describe**, nested ones included: a selection set that lies
below an expected one, unless it is an input or some variables that are declared. -/
theorem exists_describes_of_mem_flattenAll (hcompile : compile schema document compiled = .ok c)
    (h : c.generate used = .ok out) {d : Declaration}
    (hd : d ∈ Declaration.flattenAll out.declarations) :
    (∃ e ∈ c.expected, e.set? = none ∧ d.name = e.name ∧ ∀ shapes, d.body ≠ .union shapes) ∨
      ∃ e ∈ c.expected, ∃ top, e.set? = some top ∧ ∃ set,
        (c.emissionContext used).collector.Reaches top set ∧
          (c.emissionContext used).Describes out.declarations d set := by
  obtain ⟨t, hgenerates, -⟩ := generates_of_generate h
  obtain ⟨outer, houter, hinside⟩ := Declaration.mem_flattenAll.1 hd
  obtain ⟨e, he, r, r', hrun⟩ := hgenerates.exists_of_mem outer houter
  cases hset : e.set? with
  | none =>
    rw [Declaration.mem_flatten_iff, Expected.nested_eq_nil hset hrun] at hinside
    obtain rfl : d = outer := by simpa using hinside
    exact .inl ⟨e, he, hset, Expected.name_of_declaration hrun, Expected.body_ne_union hset hrun⟩
  | some top =>
    obtain ⟨set, hreaches, hexplains⟩ := Expected.exists_explains hset
      (all_wellTyped_of_compile hcompile).2 (wellTyped_of_mem_expected hcompile e he top hset) hrun
      d hinside
    refine .inr ⟨e, he, top, hset, set, hreaches, hexplains _ fun name hname => ?_⟩
    -- What is inside is nested in the outer declaration.
    obtain ⟨f, hf, rfl⟩ := List.mem_map.1 hname
    refine (declared_once_of_generate h _ (List.mem_flatMap.2 ⟨outer, houter, ?_⟩)).1
    exact List.mem_map_of_mem (Declaration.flattenAll_nested_subset outer hinside hf)

/-- **Unions in the output can be told apart.**  If the name of the type is asked for everywhere and
no other field has its key, then every union in the output discriminates the object types of the
selection set that it describes. -/
theorem discriminates_of_generate (hadds : compiled.addsTypename = true)
    (hreserves : document.ReservesTypename) (hcompile : compile schema document compiled = .ok c)
    (h : c.generate used = .ok out) {d : Declaration}
    (hd : d ∈ Declaration.flattenAll out.declarations) {shapes : List Shape}
    (hunion : d.body = .union shapes) :
    ∃ e ∈ c.expected, ∃ top, e.set? = some top ∧ ∃ set vs,
      (c.emissionContext used).collector.Reaches top set ∧
      (c.emissionContext used).Describes out.declarations d set ∧
      (c.emissionContext used).collector.variants set = .ok vs ∧
      Discriminates set.possible vs shapes := by
  rcases exists_describes_of_mem_flattenAll hcompile h hd with
    ⟨e, -, -, -, hbody⟩ | ⟨e, he, top, htop, set, hreaches, hdescribes⟩
  · exact absurd hunion (hbody shapes)
  · have hcontains := contains_of_mem_expected he htop
    have hasks := asksTypename_of_contains hcompile hadds hreserves hcontains
    have hkeeps := all_keepsTypename_of_contains hcompile hadds hreserves hcontains
    have hfragments : ∀ f ∈ c.fragments, f.set.All Field.KeepsTypename := fun f hf =>
      all_keepsTypename_of_contains hcompile hadds hreserves (.inr ⟨f, hf, .refl⟩)
    obtain ⟨vs, hvariants, hdiscriminates⟩ := hdescribes.discriminates
      (hreaches.asksTypename hasks hkeeps hfragments) (hreaches.all hkeeps hfragments) hfragments
      hunion
    exact ⟨e, he, top, htop, set, vs, hreaches, hdescribes, hvariants, hdiscriminates⟩

end Compilation

/-! ## The herd -/

/-- No field of the herd has an alias. -/
theorem reservesTypename_herd : herd.ReservesTypename := by
  rintro nodes (⟨o, ho, -⟩ | ⟨f, hf, hnodes⟩)
  · cases ho
  · obtain rfl := List.mem_singleton.1 hf
    have hlists : nodes = [
          .field "milk" none [.field "fat" none []],
          .inline (some "Goat") [.field "age" none []]] ∨
        nodes = [.field "fat" none []] ∨ nodes = [.field "age" none []] ∨ nodes = [] := by
      induction hnodes with
      | refl => exact .inl rfl
      | field _ hmem ih => rcases ih with rfl | rfl | rfl | rfl <;> simp_all
      | inline _ hmem ih => rcases ih with rfl | rfl | rfl | rfl <;> simp_all
    intro name alias? inner hmem hkey
    have hplain : alias? = none ∧ name ≠ typenameField := by
      rcases hlists with rfl | rfl | rfl | rfl <;> simp_all [typenameField]
    rw [hplain.1] at hkey
    exact absurd hkey hplain.2

/-- Cows and goats are told apart. -/
theorem discriminates_of_generate_herd :
    ∃ c out d shapes, compile animals herd { addsTypename := true } = .ok c ∧
      c.generate { addsTypename := true } = .ok out ∧
      d ∈ Declaration.flattenAll out.declarations ∧ d.body = .union shapes ∧ shapes.length = 2 ∧
      ∃ e ∈ c.expected, ∃ top, e.set? = some top ∧ ∃ set vs,
        (c.emissionContext { addsTypename := true }).collector.Reaches top set ∧
        (c.emissionContext { addsTypename := true }).Describes out.declarations d set ∧
        (c.emissionContext { addsTypename := true }).collector.variants set = .ok vs ∧
        Discriminates set.possible vs shapes := by
  obtain ⟨c, hcompile, e, hexpected, x, hx, d, t, hd, shapes, hunion, hlength⟩ :
      ∃ c, compile animals herd { addsTypename := true } = .ok c ∧ ∃ e, c.expected = [e] ∧
        ∃ x, c.emissionContext { addsTypename := true } = x ∧
        ∃ d t, (e.declaration x x.levelsFor).run (c.openSession { addsTypename := true })
          = (.ok d, t) ∧
        ∃ shapes, d.body = .union shapes ∧ shapes.length = 2 :=
    ⟨_, by cbv, _, by cbv, _, rfl, _, _, by cbv, _, rfl, rfl⟩
  obtain ⟨text, diagnostics, hgenerate⟩ : ∃ text diagnostics,
      c.generate { addsTypename := true } = .ok { declarations := [d], text, diagnostics } := by
    rw [Compilation.generate, Compilation.generateWithin, hexpected, hx, generateAll, hd]
    exact ⟨_, _, rfl⟩
  have hmem : d ∈ Declaration.flattenAll [d] :=
    Declaration.mem_flattenAll.2 ⟨d, List.mem_cons_self, Declaration.mem_flatten_iff.2 (.inl rfl)⟩
  exact ⟨c, _, d, shapes, hcompile, hgenerate, hmem, hunion, hlength,
    Compilation.discriminates_of_generate rfl reservesTypename_herd hcompile hgenerate hmem hunion⟩

end ResponseTypes
