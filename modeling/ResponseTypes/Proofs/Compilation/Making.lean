import ResponseTypes.Proofs.Compilation.Grounding
import ResponseTypes.Proofs.Selection.Containing

/-!
# What selections are compiled to

The compiler threads the types used through everything it does, but what it makes of a selection
does not depend on them.  A selection set is made from the selections of a document on a type: each
of them becomes one selection, and the name of the type may be put in front.  So every selection set
inside a compiled one is again made from selections of the document, on a type of the schema.

## What is here

* `SelectionNode.Contains`, `Document.Contains` — the lists of selections in a document.
* `CompilationInput.Types`, `Makes` and `Compiles` — what a field, a selection and a list of
  selections become; `CompilationInput.makes_of_compileSelection` says so of one selection.
* `CompilationInput.Compiles.field_cases`, `inline_cases` and `spread_cases` — what is in a compiled
  set; `exists_of_contains` goes inwards.
* `Compilation.Contains`, and `Compilation.exists_compiles_of_contains` — every compiled selection
  set is made from selections of the document.
* `Compilation.holds_of_contains` — the fragments it uses are registered.
-/

set_option autoImplicit false

namespace ResponseTypes

/-! ## Lists of selections -/

/-- A list of selections is made inside another one, or is that list: in a field, or in a fragment
written in place. -/
inductive SelectionNode.Contains (top : List SelectionNode) : List SelectionNode → Prop where
  | refl : Contains top top
  | field {above nodes : List SelectionNode} {name : String} {alias? : Option String}
    (h : Contains top above) (hmem : .field name alias? nodes ∈ above) : Contains top nodes
  | inline {above nodes : List SelectionNode} {typeCondition? : Option String}
    (h : Contains top above) (hmem : .inline typeCondition? nodes ∈ above) : Contains top nodes

/-- A list of selections is made anywhere in a document. -/
def Document.Contains (d : Document) (nodes : List SelectionNode) : Prop :=
  (∃ o ∈ d.operations, SelectionNode.Contains o.selections nodes) ∨
    ∃ f ∈ d.fragments, SelectionNode.Contains f.selections nodes

/-! ## One selection -/

namespace CompilationInput

/-- What a field that is selected on a type becomes. -/
inductive Types (x : CompilationInput) (parent name : String) (alias? : Option String) :
    Field → Prop where
  | typename (hname : name = typenameField) :
    Types x parent name alias? { Field.typename with alias? }
  | declared {d : FieldDefinition} {type : ResolvedType} (hname : name ≠ typenameField)
    (hd : x.schema.field? parent name = some d) (htype : x.schema.resolve d.type = .ok type) :
    Types x parent name alias? { name, alias?, type, description? := d.description? }

/-- A selection set is compiled from a list of selections on a type. -/
def Compiles (x : CompilationInput) (parent : String) (nodes : List SelectionNode)
    (set : SelectionSet) : Prop :=
  ∃ u u', x.compileSet parent nodes u = .ok (set, u')

/-- What a selection on a type becomes. -/
inductive Makes (x : CompilationInput) (parent : String) : SelectionNode → Selection → Prop where
  | leaf {name : String} {alias? : Option String} {nodes : List SelectionNode} {f : Field}
    (hf : x.Types parent name alias? f) (hplain : f.type.isComposite = false) :
    Makes x parent (.field name alias? nodes) (.leaf f)
  | branch {name : String} {alias? : Option String} {nodes : List SelectionNode} {f : Field}
    {set : SelectionSet} (hf : x.Types parent name alias? f)
    (hcomposite : f.type.isComposite = true) (hset : x.Compiles f.type.innermostName nodes set) :
    Makes x parent (.field name alias? nodes) (.branch f set)
  | spread {name : String} {node : FragmentNode} (hnode : x.document.fragment? name = some node) :
    Makes x parent (.spread name)
      (.spread name node.typeCondition (x.schema.possibleTypes node.typeCondition))
  | inline {typeCondition? : Option String} {nodes : List SelectionNode} {condition : String}
    {set : SelectionSet} (hcondition : typeCondition?.getD parent = condition)
    (hknown : x.schema.hasType condition = true) (hset : x.Compiles condition nodes set) :
    Makes x parent (.inline typeCondition? nodes)
      (.inline condition (x.schema.possibleTypes condition) set)

variable {x : CompilationInput} {parent : String} {u u' : UsedTypes}

theorem types_of_compileField {name : String} {alias? : Option String} {f : Field}
    (h : x.compileField parent name alias? u = .ok (f, u')) : x.Types parent name alias? f := by
  rw [compileField] at h
  split at h
  · rename_i hname
    cases h
    exact .typename hname
  · rename_i hname
    split at h
    · cases h
    · rename_i d hd
      obtain ⟨type, htype, h⟩ := bind_eq_ok_iff.1 h
      obtain ⟨v, -, h⟩ := bind_eq_ok_iff.1 h
      cases h
      exact .declared hname hd (lift_eq_ok_iff.1 htype)

theorem compiles_of_compileSelections {nodes : List SelectionNode} {selections : List Selection}
    (h : x.compileSelections parent nodes u = .ok (selections, u')) :
    x.Compiles parent nodes (x.setOf parent nodes selections) :=
  ⟨u, u', bind_eq_ok_iff.2 ⟨(selections, u'), h, rfl⟩⟩

/-- **What one selection becomes.** -/
theorem makes_of_compileSelection {node : SelectionNode} {s : Selection}
    (h : x.compileSelection parent node u = .ok (s, u')) : x.Makes parent node s := by
  cases node with
  | field name alias? nodes =>
    rw [compileSelection] at h
    obtain ⟨⟨f, v⟩, hf, h⟩ := bind_eq_ok_iff.1 h
    by_cases hcomposite : f.type.isComposite = true
    · simp only [if_pos hcomposite] at h
      obtain ⟨⟨selections, w⟩, hselections, h⟩ := bind_eq_ok_iff.1 h
      cases h
      exact .branch (types_of_compileField hf) hcomposite
        (compiles_of_compileSelections hselections)
    · simp only [if_neg hcomposite] at h
      cases h
      exact .leaf (types_of_compileField hf) (by simpa using hcomposite)
  | spread name =>
    rw [compileSelection] at h
    split at h
    · cases h
    · rename_i node hnode
      cases h
      exact .spread hnode
  | inline typeCondition? nodes =>
    rw [compileSelection] at h
    split at h
    · rename_i hknown
      obtain ⟨⟨selections, w⟩, hselections, h⟩ := bind_eq_ok_iff.1 h
      cases h
      exact .inline rfl hknown (compiles_of_compileSelections hselections)
    · cases h

/-! ## Selection sets -/

/-- **What selections become**: each becomes one selection, and nothing else is there. -/
theorem makes_of_compileSelections {nodes : List SelectionNode} {selections : List Selection}
    (h : x.compileSelections parent nodes u = .ok (selections, u')) :
    (∀ s ∈ selections, ∃ node ∈ nodes, x.Makes parent node s) ∧
      ∀ node ∈ nodes, ∃ s ∈ selections, x.Makes parent node s := by
  induction nodes generalizing selections u with
  | nil =>
    rw [compileSelections] at h
    cases h
    simp
  | cons node nodes ih =>
    rw [compileSelections] at h
    obtain ⟨⟨s, v⟩, hs, h⟩ := bind_eq_ok_iff.1 h
    obtain ⟨⟨rest, w⟩, hrest, h⟩ := bind_eq_ok_iff.1 h
    cases h
    have hmakes := makes_of_compileSelection hs
    obtain ⟨hback, hforth⟩ := ih hrest
    refine ⟨List.forall_mem_cons.2 ⟨⟨node, List.mem_cons_self, hmakes⟩, fun s hs => ?_⟩,
      List.forall_mem_cons.2 ⟨⟨s, List.mem_cons_self, hmakes⟩, fun other hother => ?_⟩⟩
    · obtain ⟨other, hother, hmakes⟩ := hback s hs
      exact ⟨other, List.mem_cons_of_mem _ hother, hmakes⟩
    · obtain ⟨s, hs, hmakes⟩ := hforth other hother
      exact ⟨s, List.mem_cons_of_mem _ hs, hmakes⟩

theorem mem_setOf {nodes : List SelectionNode} {selections : List Selection} {s : Selection}
    (h : s ∈ (x.setOf parent nodes selections).selections) :
    s = .leaf Field.typename ∨ s ∈ selections := by
  rw [setOf] at h
  split at h
  · exact List.mem_cons.1 h
  · exact .inr h

theorem subset_setOf (nodes : List SelectionNode) (selections : List Selection) :
    selections ⊆ (x.setOf parent nodes selections).selections := by
  rw [setOf]
  split
  · exact List.subset_cons_self _ _
  · exact List.Subset.refl _

/-- The type of a field that has selections on its value exists. -/
theorem Types.hasType {name : String} {alias? : Option String} {f : Field}
    (h : x.Types parent name alias? f) (hcomposite : f.type.isComposite = true) :
    x.schema.hasType f.type.innermostName = true := by
  cases h with
  | typename => cases hcomposite
  | declared _ _ htype =>
    obtain ⟨-, -, d, hget, hheart⟩ := Schema.resolve_spec htype
    rw [ResolvedType.innermostName, hheart, Schema.hasType_eq, hget]
    rfl

namespace Compiles

variable {nodes : List SelectionNode} {set : SelectionSet}

theorem exists_eq_setOf (h : x.Compiles parent nodes set) :
    ∃ u u' selections, x.compileSelections parent nodes u = .ok (selections, u') ∧
      set = x.setOf parent nodes selections := by
  obtain ⟨u, u', h⟩ := h
  rw [compileSet] at h
  obtain ⟨⟨selections, v⟩, hselections, h⟩ := bind_eq_ok_iff.1 h
  cases h
  exact ⟨u, _, selections, hselections, rfl⟩

theorem parentType_eq (h : x.Compiles parent nodes set) : set.parentType = parent := by
  obtain ⟨-, -, -, -, rfl⟩ := h.exists_eq_setOf
  rfl

theorem possible_eq (h : x.Compiles parent nodes set) :
    set.possible = x.schema.possibleTypes parent := by
  obtain ⟨-, -, -, -, rfl⟩ := h.exists_eq_setOf
  rfl

/-- **Where a selection in a compiled set comes from**: it is the name of the type, or it is made
from one of the selections. -/
theorem eq_typename_or_makes (h : x.Compiles parent nodes set) {s : Selection}
    (hs : s ∈ set.selections) :
    s = .leaf Field.typename ∨ ∃ node ∈ nodes, x.Makes parent node s := by
  obtain ⟨u, u', selections, hselections, rfl⟩ := h.exists_eq_setOf
  exact (mem_setOf hs).imp_right ((makes_of_compileSelections hselections).1 s)

/-- No selection is lost. -/
theorem exists_makes_of_mem (h : x.Compiles parent nodes set) {node : SelectionNode}
    (hnode : node ∈ nodes) : ∃ s ∈ set.selections, x.Makes parent node s := by
  obtain ⟨u, u', selections, hselections, rfl⟩ := h.exists_eq_setOf
  obtain ⟨s, hs, hmakes⟩ := (makes_of_compileSelections hselections).2 node hnode
  exact ⟨s, subset_setOf _ _ hs, hmakes⟩

/-- **The fields of a compiled set**: a field is the name of the type that is put in front, or it is
made from one that is selected.  It has selections on its value exactly if these can be made, and
they are compiled on the type of the value. -/
theorem field_cases (h : x.Compiles parent nodes set) {f : Field} {set? : Option SelectionSet}
    (hmem : Selection.ofField f set? ∈ set.selections) :
    (f = Field.typename ∧ set? = none) ∨
      ∃ name alias? inner, .field name alias? inner ∈ nodes ∧ x.Types parent name alias? f ∧
        f.type.isComposite = set?.isSome ∧
          ∀ below ∈ set?, x.Compiles f.type.innermostName inner below := by
  rcases h.eq_typename_or_makes hmem with heq | ⟨node, hnode, hmakes⟩
  · cases set? with
    | none =>
      cases heq
      exact .inl ⟨rfl, rfl⟩
    | some below => cases heq
  · cases set? with
    | none =>
      cases hmakes with
      | leaf hf hplain => exact .inr ⟨_, _, _, hnode, hf, hplain, by simp⟩
    | some below =>
      cases hmakes with
      | branch hf hcomposite hset =>
        exact .inr ⟨_, _, _, hnode, hf, hcomposite, by simpa using hset⟩

/-- **The fragments written in place** are compiled on the type they are for, which exists. -/
theorem inline_cases (h : x.Compiles parent nodes set) {condition : String}
    {possible : List String} {below : SelectionSet}
    (hmem : .inline condition possible below ∈ set.selections) :
    possible = x.schema.possibleTypes condition ∧ x.schema.hasType condition = true ∧
      ∃ typeCondition? inner, .inline typeCondition? inner ∈ nodes ∧
        x.Compiles condition inner below := by
  rcases h.eq_typename_or_makes hmem with heq | ⟨node, hnode, hmakes⟩
  · cases heq
  · cases hmakes with
    | inline _ hknown hset => exact ⟨rfl, hknown, _, _, hnode, hset⟩

/-- **The uses of fragments** are annotated from the first fragment of the document that has the
name. -/
theorem spread_cases (h : x.Compiles parent nodes set) {name condition : String}
    {possible : List String} (hmem : .spread name condition possible ∈ set.selections) :
    ∃ node, x.document.fragment? name = some node ∧ condition = node.typeCondition ∧
      possible = x.schema.possibleTypes condition := by
  rcases h.eq_typename_or_makes hmem with heq | ⟨node, -, hmakes⟩
  · cases heq
  · cases hmakes with
    | spread hnode => exact ⟨_, hnode, rfl, rfl⟩

/-- **Every selection set inside a compiled one** is compiled from selections inside, on a type that
is the outermost one or exists. -/
theorem exists_of_contains (h : x.Compiles parent nodes set) {below : SelectionSet}
    (hbelow : set.Contains below) :
    ∃ inner inside, SelectionNode.Contains nodes inside ∧ x.Compiles inner inside below ∧
      (inner = parent ∨ x.schema.hasType inner = true) := by
  induction hbelow with
  | refl => exact ⟨parent, nodes, .refl, h, .inl rfl⟩
  | @branch above below f _ hmem ih =>
    obtain ⟨inner, inside, hinside, hcompiles, -⟩ := ih
    obtain ⟨-, hnone⟩ | ⟨name, alias?, nodes', hnode, hf, hcomposite, hset⟩ :=
      hcompiles.field_cases (show Selection.ofField f (some below) ∈ _ from hmem)
    · cases hnone
    · exact ⟨_, _, .field hinside hnode, hset below rfl, .inr (hf.hasType hcomposite)⟩
  | inline _ hmem ih =>
    obtain ⟨inner, inside, hinside, hcompiles, -⟩ := ih
    obtain ⟨-, hknown, _, _, hnode, hset⟩ := hcompiles.inline_cases hmem
    exact ⟨_, _, .inline hinside hnode, hset, .inr hknown⟩

end Compiles

/-! ## Fragments and operations -/

theorem compiles_of_compileFragment {node : FragmentNode} {f : Fragment}
    (h : x.compileFragment node u = .ok (f, u')) :
    f.name = node.name ∧ f.typeCondition = node.typeCondition ∧
      x.schema.hasType node.typeCondition = true ∧
      x.Compiles node.typeCondition node.selections f.set := by
  rw [compileFragment] at h
  split at h
  · rename_i hknown
    obtain ⟨⟨set, v⟩, hset, h⟩ := bind_eq_ok_iff.1 h
    cases h
    exact ⟨rfl, rfl, hknown, u, _, hset⟩
  · cases h

/-- Every registered fragment is compiled from one of the document, unless it was registered
before. -/
theorem exists_compileFragment_of_mem {nodes : List FragmentNode} {r r' : FragmentRegistry}
    (h : x.compileFragments nodes r u = .ok (r', u')) :
    ∀ f ∈ r', f ∈ r ∨ ∃ node ∈ nodes, ∃ v v', x.compileFragment node v = .ok (f, v') := by
  induction nodes generalizing r u with
  | nil =>
    rw [compileFragments] at h
    cases h
    exact fun f hf => .inl hf
  | cons node nodes ih =>
    rw [compileFragments] at h
    obtain ⟨⟨fragment, v⟩, hfragment, h⟩ := bind_eq_ok_iff.1 h
    intro f hf
    rcases ih h f hf with hf | ⟨other, hother, hcompiled⟩
    · rcases FragmentRegistry.eq_or_mem_of_mem_insert hf with rfl | hf
      · exact .inr ⟨node, List.mem_cons_self, u, v, hfragment⟩
      · exact .inl hf
    · exact .inr ⟨other, List.mem_cons_of_mem _ hother, hcompiled⟩

theorem compiles_of_compileOperation {node : OperationNode} {o : Operation}
    (h : x.compileOperation node u = .ok (o, u')) :
    x.schema.rootType? o.kind = some o.rootType ∧ x.Compiles o.rootType node.selections o.set := by
  rw [compileOperation] at h
  split at h
  · cases h
  · split at h
    · cases h
    · rename_i root hroot
      obtain ⟨⟨vars, v⟩, -, h⟩ := bind_eq_ok_iff.1 h
      obtain ⟨⟨set, w⟩, hset, h⟩ := bind_eq_ok_iff.1 h
      cases h
      exact ⟨hroot, v, _, hset⟩

theorem exists_compileOperation_of_mem {nodes : List OperationNode} {operations : List Operation}
    (h : x.compileOperations nodes u = .ok (operations, u')) :
    ∀ o ∈ operations, ∃ node ∈ nodes, ∃ v v', x.compileOperation node v = .ok (o, v') := by
  induction nodes generalizing operations u with
  | nil =>
    rw [compileOperations] at h
    cases h
    simp
  | cons node nodes ih =>
    rw [compileOperations] at h
    obtain ⟨⟨o, v⟩, ho, h⟩ := bind_eq_ok_iff.1 h
    obtain ⟨⟨rest, w⟩, hrest, h⟩ := bind_eq_ok_iff.1 h
    cases h
    refine List.forall_mem_cons.2 ⟨⟨node, List.mem_cons_self, u, v, ho⟩, ?_⟩
    intro o ho
    obtain ⟨other, hother, hcompiled⟩ := ih hrest o ho
    exact ⟨other, List.mem_cons_of_mem _ hother, hcompiled⟩

end CompilationInput

/-! ## Whole documents -/

namespace Compilation

/-- A selection set is anywhere in what was compiled from a document. -/
def Contains (c : Compilation) (set : SelectionSet) : Prop :=
  (∃ o ∈ c.operations, o.set.Contains set) ∨ ∃ f ∈ c.fragments, f.set.Contains set

theorem Contains.trans {c : Compilation} {set below : SelectionSet} (h : c.Contains set)
    (hbelow : set.Contains below) : c.Contains below := by
  rcases h with ⟨o, ho, h⟩ | ⟨f, hf, h⟩
  · exact .inl ⟨o, ho, h.trans hbelow⟩
  · exact .inr ⟨f, hf, h.trans hbelow⟩

variable {schema : Schema} {document : Document} {options : Options} {c : Compilation}

/-- **Where compiled operations and fragments come from.** -/
theorem exists_compiles_of_compile (h : compile schema document options = .ok c) :
    (∀ o ∈ c.operations, ∃ node ∈ document.operations,
      schema.rootType? o.kind = some o.rootType ∧
        ({ schema, document, options } : CompilationInput).Compiles o.rootType node.selections
          o.set) ∧
    ∀ f ∈ c.fragments, ∃ node ∈ document.fragments, f.name = node.name ∧
      f.typeCondition = node.typeCondition ∧ schema.hasType node.typeCondition = true ∧
        ({ schema, document, options } : CompilationInput).Compiles node.typeCondition
          node.selections f.set := by
  rw [compile] at h
  obtain ⟨⟨fragments, u⟩, hfragments, h⟩ := bind_eq_ok_iff.1 h
  obtain ⟨⟨operations, u'⟩, hoperations, h⟩ := bind_eq_ok_iff.1 h
  cases h
  refine ⟨fun o ho => ?_, fun f hf => ?_⟩
  · obtain ⟨node, hnode, v, v', hcompiled⟩ :=
      CompilationInput.exists_compileOperation_of_mem hoperations o ho
    exact ⟨node, hnode, CompilationInput.compiles_of_compileOperation hcompiled⟩
  · rcases CompilationInput.exists_compileFragment_of_mem hfragments f hf with
      hf | ⟨node, hnode, v, v', hcompiled⟩
    · cases hf
    · exact ⟨node, hnode, CompilationInput.compiles_of_compileFragment hcompiled⟩

/-- **Every compiled selection set** is made from selections of the document, on a type that exists
or one that operations start from. -/
theorem exists_compiles_of_contains (h : compile schema document options = .ok c)
    {set : SelectionSet} (hset : c.Contains set) :
    ∃ parent nodes, document.Contains nodes ∧
      ({ schema, document, options } : CompilationInput).Compiles parent nodes set ∧
      (schema.hasType parent = true ∨ ∃ kind, schema.rootType? kind = some parent) := by
  obtain ⟨hoperations, hfragments⟩ := exists_compiles_of_compile h
  rcases hset with ⟨o, ho, hset⟩ | ⟨f, hf, hset⟩
  · obtain ⟨node, hnode, hroot, hcompiles⟩ := hoperations o ho
    obtain ⟨parent, nodes, hnodes, hinner, hparent⟩ := hcompiles.exists_of_contains hset
    refine ⟨parent, nodes, .inl ⟨node, hnode, hnodes⟩, hinner, ?_⟩
    rcases hparent with rfl | hknown
    · exact .inr ⟨o.kind, hroot⟩
    · exact .inl hknown
  · obtain ⟨node, hnode, -, -, hknown, hcompiles⟩ := hfragments f hf
    obtain ⟨parent, nodes, hnodes, hinner, hparent⟩ := hcompiles.exists_of_contains hset
    refine ⟨parent, nodes, .inr ⟨node, hnode, hnodes⟩, hinner, .inl ?_⟩
    rcases hparent with rfl | hknown'
    · exact hknown
    · exact hknown'

/-- Fragments used anywhere in what is compiled are registered. -/
theorem holds_of_contains (h : compile schema document options = .ok c) {set : SelectionSet}
    (hset : c.Contains set) : c.fragments.Holds set.selections := by
  have hsound := sound_of_compile h
  rcases hset with ⟨o, ho, hset⟩ | ⟨f, hf, hset⟩
  · exact (hsound.operations o ho).held.of_contains hset
  · exact (hsound.fragments f hf).held.of_contains hset

end Compilation
end ResponseTypes
