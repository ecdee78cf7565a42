import ResponseTypes.Proofs.Compilation.Grounding
import ResponseTypes.Proofs.Generation.Running

/-!
# Clashes of names at the top level

The names of declarations at the top level come from three places: types of the schema, operations,
and fragments.  The names that come from one place are different, if those of the operations are:
what is put behind the name of an operation tells the kind of the operation, and whether its result
or its variables are meant.  But nothing keeps the names that come from different places apart, for
a name is taken whether it was free or not.

## What is here

* `Expected.Origin` — where a name comes from.
* `Compilation.eq_of_name_eq` — names that come from one place are different.
* `names_nodup_iff_of_generate` — when the names at the top level are different.
* `exists_clash` — they need not be.
-/

set_option autoImplicit false

namespace ResponseTypes

/-! ## Where names come from -/

namespace Expected

/-- Where the name of a declaration comes from. -/
inductive Origin where
  | schema
  | operation
  | fragment
deriving DecidableEq, Repr

/-- Where the name of a declaration that is to be generated comes from. -/
def origin : Expected → Origin
  | .input _ => .schema
  | .vars _ => .operation
  | .result _ => .operation
  | .fragment _ => .fragment

end Expected

/-! ## Names of operations -/

namespace Operation

/-- The suffix of a kind tells the kind. -/
theorem eq_of_append_typeSuffix_eq {a b : String} {k l : OperationKind}
    (h : a ++ k.typeSuffix = b ++ l.typeSuffix) : a = b := by
  by_cases hkind : k = l
  · rw [hkind] at h
    exact (String.append_left_inj _).1 h
  · -- Read from their ends, the suffixes of different kinds soon differ.
    have hreverse := congrArg (fun s => s.toList.reverse) h
    cases k <;> cases l <;>
      first
      | exact absurd rfl hkind
      | simp [OperationKind.typeSuffix] at hreverse

/-- The name of the result of an operation is not that of the variables of one. -/
theorem append_typeSuffix_ne_append_variables (a b : String) (k l : OperationKind) :
    a ++ k.typeSuffix ≠ b ++ l.typeSuffix ++ "Variables" := by
  intro h
  have hreverse := congrArg (fun s => s.toList.reverse) h
  cases k <;> simp [OperationKind.typeSuffix] at hreverse

end Operation

/-! ## Names of what is expected -/

namespace Compilation

variable {c : Compilation}

/-- **Names that come from one place are different**, if those of the operations are. -/
theorem eq_of_name_eq (hfragments : c.fragments.names.Nodup)
    (hoperations : (c.operations.map Operation.name).Nodup) {e e' : Expected}
    (he : e ∈ c.expected) (he' : e' ∈ c.expected) (horigin : e.origin = e'.origin)
    (hname : e.name = e'.name) : e = e' := by
  have hoperation : ∀ {o o' : Operation}, o ∈ c.operations → o' ∈ c.operations →
      o.typeName = o'.typeName → o = o' := fun ho ho' h =>
    List.inj_on_of_nodup_map hoperations ho ho' (Operation.eq_of_append_typeSuffix_eq h)
  cases e with
  | input name =>
    cases e' with
    | input name' => exact congrArg Expected.input hname
    | vars _ | result _ | fragment _ => cases horigin
  | vars o =>
    cases e' with
    | vars o' =>
      rw [vars_mem_expected] at he he'
      rw [hoperation he.1 he'.1 ((String.append_left_inj _).1 hname)]
    | result o' => exact absurd hname.symm (Operation.append_typeSuffix_ne_append_variables _ _ _ _)
    | input _ | fragment _ => cases horigin
  | result o =>
    cases e' with
    | vars o' => exact absurd hname (Operation.append_typeSuffix_ne_append_variables _ _ _ _)
    | result o' =>
      rw [result_mem_expected] at he he'
      rw [hoperation he he' hname]
    | input _ | fragment _ => cases horigin
  | fragment f =>
    cases e' with
    | fragment f' =>
      rw [fragment_mem_expected] at he he'
      rw [List.inj_on_of_nodup_map hfragments he he' hname]
    | input _ | vars _ | result _ => cases horigin

/-- Nothing is expected twice. -/
theorem nodup_expected (htypes : c.typesUsed.Nodup) (hfragments : c.fragments.names.Nodup)
    (hoperations : (c.operations.map Operation.name).Nodup) : c.expected.Nodup := by
  have hinputs : (c.typesUsed.map Expected.input).Nodup :=
    htypes.map fun _ _ h => Expected.input.inj h
  have hfragments' : (c.fragments.map Expected.fragment).Nodup :=
    (List.Nodup.of_map _ hfragments).map fun _ _ h => Expected.fragment.inj h
  have hoperations' : (c.operations.flatMap Expected.ofOperation).Nodup := by
    refine List.nodup_flatMap.2 ⟨fun o _ => ?_, ?_⟩
    · rw [Expected.ofOperation]
      split <;> simp
    · refine (List.Nodup.of_map _ hoperations).imp fun {o o'} hne e he he' => hne ?_
      rcases Expected.mem_ofOperation.1 he with ⟨rfl, -⟩ | rfl <;>
        rcases Expected.mem_ofOperation.1 he' with ⟨h, -⟩ | h <;> cases h <;> rfl
  refine List.nodup_append.2 ⟨List.nodup_append.2 ⟨hinputs, hoperations', ?_⟩, hfragments', ?_⟩
  · rintro e he _ he' rfl
    obtain ⟨name, -, rfl⟩ := List.mem_map.1 he
    obtain ⟨o, -, he'⟩ := List.mem_flatMap.1 he'
    rcases Expected.mem_ofOperation.1 he' with ⟨h, -⟩ | h <;> cases h
  · rintro e he _ he' rfl
    obtain ⟨f, -, rfl⟩ := List.mem_map.1 he'
    rcases List.mem_append.1 he with he | he
    · obtain ⟨name, -, h⟩ := List.mem_map.1 he
      cases h
    · obtain ⟨o, -, he⟩ := List.mem_flatMap.1 he
      rcases Expected.mem_ofOperation.1 he with ⟨h, -⟩ | h <;> cases h

end Compilation

/-- Compiled operations keep the names of those of the document. -/
theorem names_operations_of_compile {schema : Schema} {document : Document} {o : Options}
    {c : Compilation} (h : compile schema document o = .ok c) :
    c.operations.map Operation.name = document.operations.map OperationNode.name := by
  rw [← List.forall₂_eq_eq_eq, List.forall₂_map_left_iff, List.forall₂_map_right_iff]
  exact (operations_of_compile h).2.imp fun _ _ hnode => hnode.1

/-- **When the names at the top level are different**: if the operations have different names, two
declarations in the output have one name just when the name comes from two places. -/
theorem names_nodup_iff_of_generate {schema : Schema} {document : Document} {o : Options}
    {out : Output} (hoperations : (document.operations.map OperationNode.name).Nodup)
    (h : generate schema document o = .ok out) :
    ∃ (c : Compilation) (emitted : List Expected), compile schema document o = .ok c ∧
      emitted.Sublist c.expected ∧
      out.declarations.map Declaration.name = emitted.map Expected.name ∧
      ((out.declarations.map Declaration.name).Nodup ↔
        ∀ e ∈ emitted, ∀ e' ∈ emitted, e.name = e'.name → e.origin = e'.origin) := by
  obtain ⟨-, c, hcompile, h⟩ := generate_eq_ok_iff.1 h
  obtain ⟨t, hrun, -⟩ := Compilation.generates_of_generate h
  obtain ⟨emitted, hsublist, hnames⟩ := hrun.exists_sublist
  rw [← names_operations_of_compile hcompile] at hoperations
  have hsound := sound_of_compile hcompile
  have hnodup : emitted.Nodup := hsublist.nodup
    (Compilation.nodup_expected hsound.gathered.nodup hsound.nodup hoperations)
  refine ⟨c, emitted, hcompile, hsublist, hnames, ?_⟩
  rw [hnames, List.nodup_map_iff_inj_on hnodup]
  constructor
  · intro hinjective e he e' he' hname
    rw [hinjective e he e' he' hname]
  · intro horigin e he e' he' hname
    exact Compilation.eq_of_name_eq hsound.nodup hoperations (hsublist.subset he)
      (hsublist.subset he') (horigin e he e' he' hname) hname

/-! ## A fragment called like a query -/

/-- A schema with one field. -/
def oneField : Schema :=
  Schema.ofQueryType "Query"
    |>.define (.object
      { name := "Query", fields := [{ name := "hero", type := .named "String" }] })

/-- A query, and a fragment that has the name of the type of its result. -/
def namesakes : Document where
  operations := [{
    name := "Hero"
    operationType := "query"
    selections := [.spread "HeroQuery"] }]
  fragments := [{
    name := "HeroQuery"
    typeCondition := "Query"
    selections := [.field "hero" none []] }]

theorem exists_generate_namesakes :
    ∃ out, generate oneField namesakes {} = .ok out ∧
      out.declarations.map Declaration.name = ["HeroQuery", "HeroQuery"] := by
  obtain ⟨c, hcompile, e, e', hexpected, hname, hname', x, hx, hrun⟩ :
      ∃ c, compile oneField namesakes {} = .ok c ∧ ∃ e e', c.expected = [e, e'] ∧
        e.name = "HeroQuery" ∧ e'.name = "HeroQuery" ∧
        ∃ x, c.emissionContext {} = x ∧
          ∀ s, (∃ d t, (e.declaration x x.levelsFor).run s = (.ok d, t)) ∧
            ∃ d t, (e'.declaration x x.levelsFor).run s = (.ok d, t) :=
    ⟨_, by cbv, _, _, by cbv, by cbv, by cbv, _, rfl, fun s => ⟨⟨_, _, by cbv⟩, _, _, by cbv⟩⟩
  obtain ⟨d, r, hd⟩ := (hrun (c.openSession {})).1
  obtain ⟨d', t, hd'⟩ := (hrun (r.enqueue d)).2
  obtain ⟨text, diagnostics, hgenerate⟩ : ∃ text diagnostics,
      c.generate {} = .ok { declarations := [d, d'], text, diagnostics } := by
    rw [Compilation.generate, Compilation.generateWithin, hexpected, hx]
    simp only [generateAll, hd, hd']
    exact ⟨_, _, rfl⟩
  have hvalid : oneField.validate = .ok () := by cbv
  refine ⟨_, generate_eq_ok_iff.2 ⟨hvalid, c, hcompile, hgenerate⟩, ?_⟩
  rw [List.map_cons, List.map_singleton, Expected.name_of_declaration hd,
    Expected.name_of_declaration hd', hname, hname']

/-- **Names at the top level may clash.**  The schema is valid, and there is one operation and one
fragment; but two declarations have one name. -/
theorem exists_clash :
    oneField.validate = .ok () ∧ (namesakes.operations.map OperationNode.name).Nodup ∧
      (namesakes.fragments.map FragmentNode.name).Nodup ∧
      ∃ out, generate oneField namesakes {} = .ok out ∧
        ¬ (out.declarations.map Declaration.name).Nodup := by
  obtain ⟨out, hgenerate, hnames⟩ := exists_generate_namesakes
  refine ⟨by cbv, by decide, by decide, out, hgenerate, ?_⟩
  rw [hnames]
  decide

/-- The two names come from an operation and from a fragment. -/
theorem names_nodup_iff_of_generate_namesakes :
    (namesakes.operations.map OperationNode.name).Nodup ∧
      ∃ out, generate oneField namesakes {} = .ok out ∧
        ∃ (c : Compilation) (emitted : List Expected), compile oneField namesakes {} = .ok c ∧
          emitted.Sublist c.expected ∧
          out.declarations.map Declaration.name = emitted.map Expected.name ∧
          ((out.declarations.map Declaration.name).Nodup ↔
            ∀ e ∈ emitted, ∀ e' ∈ emitted, e.name = e'.name → e.origin = e'.origin) := by
  obtain ⟨out, hgenerate, -⟩ := exists_generate_namesakes
  exact ⟨by decide, out, hgenerate, names_nodup_iff_of_generate (by decide) hgenerate⟩

end ResponseTypes
