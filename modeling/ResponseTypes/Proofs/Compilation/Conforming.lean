import Mathlib.Data.List.Permutation
import ResponseTypes.Proofs.Compilation.Making

/-!
# Compiled documents conform to the schema

Whatever is collected, sorted into variants or expressed later relies on what the compiler has
looked up: on the types of selection sets and fields, on the object types that are possible, and on
the fragments that are used.  For a schema that is valid, all of it is as the schema has it.

A use of a fragment carries the type that the fragment applies to.  The compiler reads it off the
first fragment of that name in the document, while the last one is registered.  So the two belong
together when fragments of one name apply to one type, as they do in every document that the
language allows: there, names of fragments are unique.

## What is here

* `SelectionSet.ConformsTo`, and `Compilation.conformsTo_of_contains`.
* `Compilation.spread_agrees_of_contains` — the use of a fragment and the fragment.
* `exists_spread_ne` — a document with two fragments of one name, for which they differ.
-/

set_option autoImplicit false

namespace ResponseTypes

/-- A selection set is as a schema has it, next to some registered fragments. -/
structure SelectionSet.ConformsTo (set : SelectionSet) (s : Schema) (r : FragmentRegistry) :
    Prop where
  parent : s.hasType set.parentType = true
  possible : set.possible = s.possibleTypes set.parentType
  declared : ∀ f set?, Selection.ofField f set? ∈ set.selections → f.isTypename = false →
    ∃ d, s.field? set.parentType f.name = some d ∧ s.resolve d.type = .ok f.type ∧
      f.description? = d.description?
  nested : ∀ f set?, Selection.ofField f set? ∈ set.selections →
    (set?.isSome = true ↔ f.type.isComposite = true) ∧
      ∀ below ∈ set?, below.parentType = f.type.innermostName
  conditions : ∀ condition possible below, .inline condition possible below ∈ set.selections →
    possible = s.possibleTypes condition ∧ below.parentType = condition
  spreads : ∀ name condition possible, .spread name condition possible ∈ set.selections →
    ∃ f, r.get? name = some f

/-! ## Fields -/

namespace CompilationInput

variable {x : CompilationInput} {parent : String}

/-- Where a field is selected on a type, it is the name of the type or one that the type declares.
-/
theorem Types.exists_declared {name : String} {alias? : Option String} {f : Field}
    (h : x.Types parent name alias? f) (hname : f.isTypename = false) :
    ∃ d, x.schema.field? parent f.name = some d ∧ x.schema.resolve d.type = .ok f.type ∧
      f.description? = d.description? := by
  cases h with
  | typename => cases hname
  | declared _ hd htype => exact ⟨_, hd, htype, rfl⟩

namespace Compiles

variable {nodes : List SelectionNode} {set : SelectionSet}

/-- **A field of a compiled set**: it asks for the name of the type or is declared, and it has
selections on its value, on the type of that value, exactly if they can be made. -/
theorem field_spec (h : x.Compiles parent nodes set) {f : Field} {set? : Option SelectionSet}
    (hmem : Selection.ofField f set? ∈ set.selections) :
    (f.isTypename = false → ∃ d, x.schema.field? parent f.name = some d ∧
      x.schema.resolve d.type = .ok f.type ∧ f.description? = d.description?) ∧
    (set?.isSome = true ↔ f.type.isComposite = true) ∧
      ∀ below ∈ set?, below.parentType = f.type.innermostName := by
  rcases h.field_cases hmem with ⟨rfl, rfl⟩ | ⟨name, alias?, inner, -, hf, hcomposite, hset⟩
  · refine ⟨?_, iff_of_false Bool.false_ne_true (by decide), by simp⟩
    intro hname
    cases hname
  · exact ⟨hf.exists_declared, by rw [hcomposite],
      fun below hbelow => (hset below hbelow).parentType_eq⟩

end Compiles
end CompilationInput

/-! ## Whole documents -/

namespace Compilation

variable {schema : Schema} {document : Document} {options : Options} {c : Compilation}
  {set : SelectionSet}

/-- **Compiled selection sets conform to the schema**, at any depth of an operation or a fragment,
if the schema is valid. -/
theorem conformsTo_of_contains (hvalid : schema.validate = .ok ())
    (h : compile schema document options = .ok c) (hset : c.Contains set) :
    set.ConformsTo schema c.fragments := by
  obtain ⟨parent, nodes, -, hcompiles, hparent⟩ := exists_compiles_of_contains h hset
  obtain rfl := hcompiles.parentType_eq
  exact {
    parent := by
      rcases hparent with hknown | ⟨kind, hroot⟩
      · exact hknown
      · exact Schema.hasType_of_rootType? hvalid hroot
    possible := hcompiles.possible_eq
    declared := fun f set? hmem => (hcompiles.field_spec hmem).1
    nested := fun f set? hmem => (hcompiles.field_spec hmem).2
    conditions := by
      intro condition possible below hmem
      obtain ⟨hpossible, -, _, _, -, hbelow⟩ := hcompiles.inline_cases hmem
      exact ⟨hpossible, hbelow.parentType_eq⟩
    spreads := fun name condition possible hmem =>
      holds_of_contains h hset 0 name (.spread hmem) }

end Compilation

/-! ## Pets -/

/-- Cats and dogs, which have friends. -/
def shelter : Schema :=
  let friend : FieldDefinition := { name := "friend", type := .named "Pet" }
  Schema.ofQueryType "Query"
    |>.define (.interface { name := "Pet", fields := [friend] })
    |>.define (.object
      { name := "Cat", fields := [friend, { name := "lives", type := .named "Int" }]
        interfaces := ["Pet"] })
    |>.define (.object
      { name := "Dog", fields := [friend, { name := "tricks", type := .named "Int" }]
        interfaces := ["Pet"] })
    |>.define (.object
      { name := "Query", fields := [{ name := "pets", type := .list (.named "Pet") }] })

/-- A query for the friends of pets, with some fragments. -/
def adoption (fragments : List FragmentNode) : Document where
  operations := [{
    name := "Adoption"
    operationType := "query"
    selections := [.field "pets" none [
      .field "friend" none [.spread "Details"],
      .inline (some "Dog") [.field "tricks" none []]]] }]
  fragments := fragments

/-- The details of a cat. -/
def ofCats : FragmentNode where
  name := "Details"
  typeCondition := "Cat"
  selections := [.field "lives" none []]

/-- The details of a dog, under the same name. -/
def ofDogs : FragmentNode where
  name := "Details"
  typeCondition := "Dog"
  selections := [.field "tricks" none []]

/-- The selections on the friends, when the details are first those of a cat. -/
def friendSet : SelectionSet where
  parentType := "Pet"
  possible := ["Cat", "Dog"]
  selections := [.spread "Details" "Cat" ["Cat"]]

theorem exists_compile_adoption :
    ∃ c, compile shelter (adoption [ofCats]) {} = .ok c ∧ c.Contains friendSet :=
  ⟨_, by cbv, .inl ⟨_, List.mem_cons_self,
    .branch (.branch .refl List.mem_cons_self) List.mem_cons_self⟩⟩

/-- The selections on the friends of pets stand two fields inside the query. -/
theorem conformsTo_friendSet :
    ∃ c, compile shelter (adoption [ofCats]) {} = .ok c ∧ c.Contains friendSet ∧
      friendSet.ConformsTo shelter c.fragments := by
  obtain ⟨c, hcompile, hset⟩ := exists_compile_adoption
  exact ⟨c, hcompile, hset, Compilation.conformsTo_of_contains (by cbv) hcompile hset⟩

/-! ## Uses of fragments -/

namespace Compilation

variable {schema : Schema} {document : Document} {options : Options} {c : Compilation}
  {set : SelectionSet}

/-- **The use of a fragment agrees with the fragment** that is registered, if all fragments of its
name apply to one type.  If there is only one of its name, both come from that one. -/
theorem spread_agrees_of_contains (h : compile schema document options = .ok c)
    (hset : c.Contains set) {name condition : String} {possible : List String}
    (hmem : .spread name condition possible ∈ set.selections)
    (hsame : ∀ node ∈ document.fragments, ∀ other ∈ document.fragments, node.name = name →
      other.name = name → node.typeCondition = other.typeCondition) :
    ∃ f, c.fragments.get? name = some f ∧ condition = f.typeCondition ∧
      possible = schema.possibleTypes f.typeCondition ∧
      ((∀ node ∈ document.fragments, ∀ other ∈ document.fragments, node.name = name →
          other.name = name → node = other) →
        ∃ node, document.fragment? name = some node ∧ condition = node.typeCondition ∧
          ({ schema, document, options } : CompilationInput).Compiles node.typeCondition
            node.selections f.set) := by
  obtain ⟨parent, nodes, -, hcompiles, -⟩ := exists_compiles_of_contains h hset
  obtain ⟨first, hfirst, rfl, rfl⟩ := hcompiles.spread_cases hmem
  have hfirstmem : first ∈ document.fragments := List.mem_of_find?_eq_some hfirst
  have hfirstname : first.name = name := by simpa using List.find?_some hfirst
  obtain ⟨f, hget⟩ := holds_of_contains h hset 0 name (.spread hmem)
  obtain ⟨node, hnode, hname, hcondition, -, hf⟩ :=
    (exists_compiles_of_compile h).2 f (FragmentRegistry.mem_of_get? hget)
  rw [FragmentRegistry.name_of_get? hget] at hname
  have hagrees : first.typeCondition = f.typeCondition :=
    (hsame first hfirstmem node hnode hfirstname hname.symm).trans hcondition.symm
  refine ⟨f, hget, hagrees, by rw [hagrees], fun hunique => ?_⟩
  obtain rfl : first = node := hunique first hfirstmem node hnode hfirstname hname.symm
  exact ⟨first, hfirst, rfl, hf⟩

end Compilation

/-- The details of a cat, and two fragments that share another name. -/
def detailsAndStrays : List FragmentNode :=
  [ofCats, { ofCats with name := "Stray" }, { ofDogs with name := "Stray" }]

/-- With one fragment of the name, the details are those of cats, whatever strays there are. -/
theorem spread_agrees_friendSet :
    ∃ c f node, compile shelter (adoption detailsAndStrays) {} = .ok c ∧ c.Contains friendSet ∧
      c.fragments.get? "Details" = some f ∧ "Cat" = f.typeCondition ∧
      ["Cat"] = shelter.possibleTypes f.typeCondition ∧
      (adoption detailsAndStrays).fragment? "Details" = some node ∧ "Cat" = node.typeCondition ∧
        ({ schema := shelter, document := adoption detailsAndStrays
           options := {} } : CompilationInput).Compiles node.typeCondition node.selections
          f.set := by
  obtain ⟨c, hcompile, hset⟩ : ∃ c, compile shelter (adoption detailsAndStrays) {} = .ok c ∧
      c.Contains friendSet :=
    ⟨_, by cbv, .inl ⟨_, List.mem_cons_self,
      .branch (.branch .refl List.mem_cons_self) List.mem_cons_self⟩⟩
  have hunique : ∀ node ∈ (adoption detailsAndStrays).fragments,
      ∀ other ∈ (adoption detailsAndStrays).fragments, node.name = "Details" →
        other.name = "Details" → node = other := by
    simp [adoption, detailsAndStrays]
  obtain ⟨f, hget, hcondition, hpossible, hdefined⟩ :=
    Compilation.spread_agrees_of_contains hcompile hset List.mem_cons_self
      fun node hnode other hother h h' => by rw [hunique node hnode other hother h h']
  obtain ⟨node, hnode, hcondition', hcompiles⟩ := hdefined hunique
  exact ⟨c, f, node, hcompile, hset, hget, hcondition, hpossible, hnode, hcondition', hcompiles⟩

/-- **The use of a fragment may differ from the fragment.**  The schema is valid and the document
compiles, but the details are used as those of cats, and registered as those of dogs. -/
theorem exists_spread_ne :
    shelter.validate = .ok () ∧ ∃ c, compile shelter (adoption [ofCats, ofDogs]) {} = .ok c ∧
      c.Contains friendSet ∧ .spread "Details" "Cat" ["Cat"] ∈ friendSet.selections ∧
        ∃ f, c.fragments.get? "Details" = some f ∧ f.typeCondition ≠ "Cat" ∧
          shelter.possibleTypes f.typeCondition ≠ ["Cat"] := by
  obtain ⟨c, hcompile, hset, f, hget, hcondition⟩ :
      ∃ c, compile shelter (adoption [ofCats, ofDogs]) {} = .ok c ∧ c.Contains friendSet ∧
        ∃ f, c.fragments.get? "Details" = some f ∧ f.typeCondition = "Dog" :=
    ⟨_, by cbv, .inl ⟨_, List.mem_cons_self,
      .branch (.branch .refl List.mem_cons_self) List.mem_cons_self⟩, _, by cbv, rfl⟩
  refine ⟨by cbv, c, hcompile, hset, List.mem_cons_self, f, hget, ?_⟩
  rw [hcondition]
  exact ⟨by decide, by decide⟩

end ResponseTypes
