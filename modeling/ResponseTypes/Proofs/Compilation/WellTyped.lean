import ResponseTypes.Proofs.Compilation.Making
import ResponseTypes.Proofs.Variant.Partition

/-!
# Compiled selections are well typed

The compiler makes selections on a value exactly where its type is composite, and gives the name of
a type the type of strings.  Both remain true of the fields that are collected and of variants; so a
field that is narrowed never has selections.

## What is here

* `Field.WellTyped`.
* `all_wellTyped_of_compile` — everything that is compiled is well typed.
* `MergedField.WellTyped`, and `Collector.wellTyped_of_variants`: what is collected is well typed,
  too.
-/

set_option autoImplicit false

namespace ResponseTypes

/-- Selections are made on the value of a field if its type is composite, and the name of a type is
a string. -/
structure Field.WellTyped (f : Field) (set? : Option SelectionSet) : Prop where
  composite : f.type.isComposite = set?.isSome
  typename : f.isTypename = true → f.type = Field.typename.type

/-! ## Compilation -/

/-- The fields of a compiled set are well typed. -/
theorem CompilationInput.Compiles.wellTyped {x : CompilationInput} {parent : String}
    {nodes : List SelectionNode} {set : SelectionSet} (h : x.Compiles parent nodes set) {f : Field}
    {set? : Option SelectionSet} (hmem : Selection.ofField f set? ∈ set.selections) :
    f.WellTyped set? := by
  rcases h.field_cases hmem with ⟨rfl, rfl⟩ | ⟨name, alias?, inner, -, hf, hcomposite, -⟩
  · exact ⟨rfl, fun _ => rfl⟩
  · refine ⟨hcomposite, fun htypename => ?_⟩
    cases hf with
    | typename => rfl
    | declared hname _ _ => exact absurd (beq_iff_eq.1 htypename) hname

/-- **Everything that is compiled is well typed.** -/
theorem all_wellTyped_of_compile {schema : Schema} {document : Document} {options : Options}
    {c : Compilation} (h : compile schema document options = .ok c) :
    (∀ o ∈ c.operations, o.set.All Field.WellTyped) ∧
      ∀ f ∈ c.fragments, f.set.All Field.WellTyped := by
  have hall : ∀ set, c.Contains set → set.All Field.WellTyped := by
    intro set hset
    refine set.all_of_contains fun below hbelow f set? hmem => ?_
    obtain ⟨parent, nodes, -, hcompiles, -⟩ :=
      Compilation.exists_compiles_of_contains h (hset.trans hbelow)
    exact hcompiles.wellTyped hmem
  exact ⟨fun o ho => hall o.set (.inl ⟨o, ho, .refl⟩), fun f hf => hall f.set (.inr ⟨f, hf, .refl⟩)⟩

/-! ## What is collected -/

/-- A collected field is well typed: it has selections if its type is composite, these are well
typed, and it is narrowed only if it is a string. -/
structure MergedField.WellTyped (m : MergedField) : Prop where
  composite : m.type.isComposite = m.set?.isSome
  typename : m.isTypename = true → m.type = Field.typename.type
  narrowed : m.literals? ≠ none → m.isTypename = true
  selections : ∀ set ∈ m.set?, set.All Field.WellTyped

namespace MergedField.WellTyped

variable {m : MergedField}

/-- A field of a composite type is never narrowed. -/
theorem literals?_eq_none (h : m.WellTyped) (hcomposite : m.type.isComposite = true) :
    m.literals? = none := by
  by_contra hnarrowed
  rw [h.typename (h.narrowed hnarrowed)] at hcomposite
  cases hcomposite

end MergedField.WellTyped

namespace Collector

variable {x : Collector} {set : SelectionSet}

theorem wellTyped_of_collect (hset : set.All Field.WellTyped)
    (hfragments : ∀ f ∈ x.fragments, f.set.All Field.WellTyped) {object? : Option String}
    {c : Collected} (hc : x.collect set object? = .ok c) : ∀ m ∈ c.fields, m.WellTyped := by
  intro m hm
  obtain ⟨f, es, ⟨p, set?, hfirst⟩, rfl, hes⟩ := exists_fields_of_mem hset hfragments hc hm
  have hcomposite : ∀ e ∈ es, e.set?.isSome = f.type.isComposite := by
    intro e he
    obtain ⟨q, g, set?', rfl, htype, hg, -⟩ := hes e he
    rw [← htype]
    exact hg.composite.symm
  have hsome : (Encounter.joined es).isSome = f.type.isComposite := by
    rw [Encounter.joined_isSome, Bool.eq_iff_iff, List.any_eq_true]
    constructor
    · rintro ⟨e, he, hsome⟩
      exact (hcomposite e he).symm.trans hsome
    · intro hsome
      exact ⟨_, hfirst, (hcomposite _ hfirst).trans hsome⟩
  refine ⟨hsome.symm, ?_, ?_, ?_⟩
  · obtain ⟨q, g, set?', heq, -, hg, -⟩ := hes _ hfirst
    cases heq
    exact hg.typename
  · exact fun h => absurd rfl h
  · intro s hs
    refine Encounter.all_of_joined hs fun e he => ?_
    obtain ⟨q, g, set?', rfl, -, -, hall⟩ := hes e he
    exact hall

/-- **The variants of compiled selections are well typed.** -/
theorem wellTyped_of_variants (hset : set.All Field.WellTyped)
    (hfragments : ∀ f ∈ x.fragments, f.set.All Field.WellTyped) {vs : List Variant}
    (h : x.variants set = .ok vs) : ∀ v ∈ vs, ∀ m ∈ v.fields, m.WellTyped := by
  intro v hv m hm
  obtain ⟨possible, object?, c, hc, rfl | rfl⟩ := exists_collect_of_mem_variants h hv
  · exact wellTyped_of_collect hset hfragments hc m hm
  · obtain ⟨n, hn, rfl⟩ := Variant.mem_narrowed_fields.1 hm
    have hwell := wellTyped_of_collect hset hfragments hc n hn
    split
    · rename_i htypename
      exact ⟨hwell.composite, hwell.typename, fun _ => htypename, hwell.selections⟩
    · exact hwell

end Collector
end ResponseTypes
