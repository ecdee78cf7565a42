import ResponseTypes.Proofs.Compilation.Making

/-!
# Asking for the name of the type changes nothing else

The compiler decides from the selections of the document, before they are looked up, whether to put
the name of the type in front of them.  What it decides can as well be read off the compiled
selections, since a field keeps its key.  And nothing that is looked up, noted or reported depends
on it.  So compiling with the name of the type is compiling without it, and adding it afterwards.

## What is here

* `SelectionSet.tagged`, `Compilation.tagged` — the name of the type is added wherever no field has
  its key.
* `CompilationInput.compileSelection_asking` — one selection; the lemmas that follow go on to sets,
  fragments and operations.
* `compile_asking_eq_map_tagged` — whole documents.
-/

set_option autoImplicit false

namespace ResponseTypes

/-! ## Adding the name of the type -/

mutual

/-- The selection with the name of the type added to all selection sets inside. -/
def Selection.tagged : Selection → Selection
  | .leaf f => .leaf f
  | .branch f set => .branch f set.tagged
  | .inline condition possible set => .inline condition possible set.tagged
  | .spread name condition possible => .spread name condition possible

/-- The selection set with the name of the type in front, unless a field has its key, and added to
all selection sets inside. -/
def SelectionSet.tagged : SelectionSet → SelectionSet
  | ⟨parent, possible, selections⟩ =>
    ⟨parent, possible,
      if SelectionSet.hasKey ⟨parent, possible, selections⟩ typenameField then
        Selection.taggedAll selections
      else .leaf Field.typename :: Selection.taggedAll selections⟩

/-- The selections with the name of the type added to all selection sets inside. -/
def Selection.taggedAll : List Selection → List Selection
  | [] => []
  | s :: rest => s.tagged :: Selection.taggedAll rest

end

/-- The fragment with the name of the type added everywhere. -/
def Fragment.tagged (f : Fragment) : Fragment :=
  { f with set := f.set.tagged }

/-- The operation with the name of the type added everywhere. -/
def Operation.tagged (o : Operation) : Operation :=
  { o with set := o.set.tagged }

/-- The compiled document with the name of the type added everywhere. -/
def Compilation.tagged (c : Compilation) : Compilation :=
  { c with
    operations := c.operations.map Operation.tagged
    fragments := c.fragments.map Fragment.tagged }

/-! ## Selections -/

namespace CompilationInput

variable (x : CompilationInput)

/-- The same input, with the name of the type asked for everywhere or not. -/
def asking (b : Bool) : CompilationInput :=
  { x with options := { x.options with addsTypename := b } }

variable {x} {parent : String} {nodes : List SelectionNode} {selections : List Selection}
  {u u' : UsedTypes}

theorem Types.key_eq {name : String} {alias? : Option String} {f : Field}
    (h : x.Types parent name alias? f) : f.key = alias?.getD name := by
  cases h with
  | typename hname => rw [hname]; rfl
  | declared _ _ _ => rfl

/-- A compiled selection has the key of the type name if the selection has it. -/
theorem Makes.hasKey_iff {node : SelectionNode} {s : Selection} (h : x.Makes parent node s) :
    (∃ f, s.field? = some f ∧ f.key = typenameField) ↔
      SelectionNode.asksTypename [node] = true := by
  cases h with
  | leaf hf _ | branch hf _ _ => simp [Selection.field?, SelectionNode.asksTypename, hf.key_eq]
  | spread _ | inline _ _ _ => simp [Selection.field?, SelectionNode.asksTypename]

/-- **Whether the name of the type is asked for** can be read off the compiled selections. -/
theorem hasKey_eq_asksTypename (possible : List String)
    (h : x.compileSelections parent nodes u = .ok (selections, u')) :
    SelectionSet.hasKey ⟨parent, possible, selections⟩ typenameField
      = SelectionNode.asksTypename nodes := by
  obtain ⟨hback, hforth⟩ := makes_of_compileSelections h
  rw [Bool.eq_iff_iff]
  simp only [SelectionSet.hasKey, SelectionSet.fields, List.any_eq_true, List.mem_filterMap,
    beq_iff_eq]
  constructor
  · rintro ⟨f, ⟨s, hs, hf⟩, hkey⟩
    obtain ⟨node, hnode, hmakes⟩ := hback s hs
    have hasks := hmakes.hasKey_iff.1 ⟨f, hf, hkey⟩
    rw [SelectionNode.asksTypename, List.any_cons, List.any_nil, Bool.or_false] at hasks
    exact List.any_eq_true.2 ⟨node, hnode, hasks⟩
  · intro hasks
    obtain ⟨node, hnode, hasks⟩ := List.any_eq_true.1 hasks
    obtain ⟨s, hs, hmakes⟩ := hforth node hnode
    obtain ⟨f, hf, hkey⟩ := hmakes.hasKey_iff.2
      (by rw [SelectionNode.asksTypename, List.any_cons, hasks]; rfl)
    exact ⟨f, ⟨s, hs, hf⟩, hkey⟩

/-- The set of tagged selections, if it asks for the name of the type, is that of the others,
tagged. -/
theorem setOf_asking
    (h : (x.asking false).compileSelections parent nodes u = .ok (selections, u')) :
    (x.asking true).setOf parent nodes (Selection.taggedAll selections)
      = ((x.asking false).setOf parent nodes selections).tagged := by
  have hkey := hasKey_eq_asksTypename (x.schema.possibleTypes parent) h
  have hplain : (x.asking false).setOf parent nodes selections
      = ⟨parent, x.schema.possibleTypes parent, selections⟩ := rfl
  rw [hplain, SelectionSet.tagged, hkey, setOf]
  cases SelectionNode.asksTypename nodes <;> rfl

mutual

/-- **One selection**: what is asked for is added, and nothing else depends on it. -/
theorem compileSelection_asking (x : CompilationInput) (parent : String) :
    (node : SelectionNode) → (u : UsedTypes) →
      (x.asking true).compileSelection parent node u
        = ((x.asking false).compileSelection parent node u).map fun r => (r.1.tagged, r.2)
  | .field name alias? nodes, u => by
    have hfield : (x.asking true).compileField parent name alias? u
        = (x.asking false).compileField parent name alias? u := rfl
    rw [compileSelection, compileSelection, hfield]
    cases (x.asking false).compileField parent name alias? u with
    | error e => rfl
    | ok r =>
      obtain ⟨f, v⟩ := r
      simp only [bind, Except.bind]
      by_cases hcomposite : f.type.isComposite = true
      · rw [if_pos hcomposite, if_pos hcomposite, compileSelections_asking]
        cases hselections :
            (x.asking false).compileSelections f.type.innermostName nodes v with
        | error e => rfl
        | ok r =>
          simp only [Except.map, setOf_asking hselections]
          rfl
      · rw [if_neg hcomposite, if_neg hcomposite]
        rfl
  | .spread name, u => by
    rw [compileSelection, compileSelection]
    change (match x.document.fragment? name with | none => _ | some f => _)
      = Except.map _ (match x.document.fragment? name with | none => _ | some f => _)
    cases x.document.fragment? name <;> rfl
  | .inline typeCondition? nodes, u => by
    rw [compileSelection, compileSelection]
    have hschema : (x.asking true).schema = (x.asking false).schema := rfl
    rw [hschema]
    by_cases hknown : (x.asking false).schema.hasType (typeCondition?.getD parent) = true
    · rw [if_pos hknown, if_pos hknown, compileSelections_asking]
      cases hselections :
          (x.asking false).compileSelections (typeCondition?.getD parent) nodes u with
      | error e => rfl
      | ok r =>
        simp only [bind, Except.bind, Except.map, setOf_asking hselections]
        rfl
    · rw [if_neg hknown, if_neg hknown]
      rfl

theorem compileSelections_asking (x : CompilationInput) (parent : String) :
    (nodes : List SelectionNode) → (u : UsedTypes) →
      (x.asking true).compileSelections parent nodes u
        = ((x.asking false).compileSelections parent nodes u).map fun r =>
            (Selection.taggedAll r.1, r.2)
  | [], u => by
    rw [compileSelections, compileSelections]
    rfl
  | node :: nodes, u => by
    rw [compileSelections, compileSelections, compileSelection_asking]
    cases (x.asking false).compileSelection parent node u with
    | error e => rfl
    | ok r =>
      simp only [bind, Except.bind, Except.map]
      rw [compileSelections_asking]
      cases (x.asking false).compileSelections parent nodes r.2 <;> rfl

end

variable (x) (parent nodes u)

theorem compileSet_asking :
    (x.asking true).compileSet parent nodes u
      = ((x.asking false).compileSet parent nodes u).map fun r => (r.1.tagged, r.2) := by
  rw [compileSet, compileSet, compileSelections_asking]
  cases hselections : (x.asking false).compileSelections parent nodes u with
  | error e => rfl
  | ok r =>
    simp only [bind, Except.bind, Except.map, setOf_asking hselections]
    rfl

/-! ## Fragments and operations -/

theorem compileFragment_asking (f : FragmentNode) :
    (x.asking true).compileFragment f u
      = ((x.asking false).compileFragment f u).map fun r => (r.1.tagged, r.2) := by
  rw [compileFragment, compileFragment, compileSet_asking]
  change (if x.schema.hasType f.typeCondition = true then _ else _)
    = Except.map _ (if x.schema.hasType f.typeCondition = true then _ else _)
  split
  · cases (x.asking false).compileSet f.typeCondition f.selections u <;> rfl
  · rfl

theorem map_tagged_insert (f : Fragment) (r : FragmentRegistry) :
    (FragmentRegistry.insert f r).map Fragment.tagged
      = FragmentRegistry.insert f.tagged (r.map Fragment.tagged) := by
  induction r with
  | nil => rfl
  | cons g r ih =>
    rw [FragmentRegistry.insert, List.map_cons, FragmentRegistry.insert]
    by_cases hsame : g.name = f.name
    · rw [if_pos hsame, if_pos (show g.tagged.name = f.tagged.name from hsame), List.map_cons]
    · rw [if_neg hsame, if_neg (show ¬ g.tagged.name = f.tagged.name from hsame), List.map_cons, ih]

theorem compileFragments_asking (fs : List FragmentNode) (r : FragmentRegistry) :
    (x.asking true).compileFragments fs (r.map Fragment.tagged) u
      = ((x.asking false).compileFragments fs r u).map fun result =>
          (result.1.map Fragment.tagged, result.2) := by
  induction fs generalizing r u with
  | nil => rfl
  | cons f fs ih =>
    rw [compileFragments, compileFragments, compileFragment_asking]
    cases (x.asking false).compileFragment f u with
    | error e => rfl
    | ok result =>
      simp only [bind, Except.bind, Except.map, ← map_tagged_insert]
      exact ih result.2 _

theorem compileVariables_asking (vs : List VariableNode) :
    (x.asking true).compileVariables vs u = (x.asking false).compileVariables vs u := by
  induction vs generalizing u with
  | nil => rfl
  | cons v vs ih =>
    rw [compileVariables, compileVariables]
    simp only [ih]
    rfl

theorem compileOperation_asking (o : OperationNode) :
    (x.asking true).compileOperation o u
      = ((x.asking false).compileOperation o u).map fun r => (r.1.tagged, r.2) := by
  rw [compileOperation, compileOperation]
  cases o.kind? with
  | none => rfl
  | some kind =>
    have hschema : ∀ asks, (x.asking asks).schema = x.schema := fun _ => rfl
    simp only [hschema]
    cases x.schema.rootType? kind with
    | none => rfl
    | some rootType =>
      simp only [compileVariables_asking]
      cases (x.asking false).compileVariables o.vars u with
      | error e => rfl
      | ok r =>
        simp only [bind, Except.bind, compileSet_asking]
        cases (x.asking false).compileSet rootType o.selections r.2 <;> rfl

theorem compileOperations_asking (os : List OperationNode) :
    (x.asking true).compileOperations os u
      = ((x.asking false).compileOperations os u).map fun r =>
          (r.1.map Operation.tagged, r.2) := by
  induction os generalizing u with
  | nil => rfl
  | cons o os ih =>
    rw [compileOperations, compileOperations, compileOperation_asking]
    cases (x.asking false).compileOperation o u with
    | error e => rfl
    | ok r =>
      simp only [bind, Except.bind, Except.map]
      rw [ih]
      cases (x.asking false).compileOperations os r.2 <;> rfl

end CompilationInput

/-! ## Whole documents -/

/-- **Asking for the name of the type only adds it.**  Two compilations that differ in this option
alone fail together, with one and the same error; and if they succeed, the one that asks for it is
the other one with the name of the type put in front of every selection set, at any depth, in which
no field has its key. -/
theorem compile_asking_eq_map_tagged (schema : Schema) (document : Document) (o : Options) :
    compile schema document { o with addsTypename := true }
      = (compile schema document { o with addsTypename := false }).map Compilation.tagged := by
  let x : CompilationInput := { schema, document, options := o }
  have hfragments := x.compileFragments_asking [] document.fragments []
  rw [compile, compile]
  change ((x.asking true).compileFragments document.fragments [] [] >>= _)
    = Except.map _ ((x.asking false).compileFragments document.fragments [] [] >>= _)
  rw [show (x.asking true).compileFragments document.fragments [] [] = _ from hfragments]
  cases (x.asking false).compileFragments document.fragments [] [] with
  | error e => rfl
  | ok r =>
    simp only [bind, Except.bind, Except.map]
    change Except.bind ((x.asking true).compileOperations document.operations r.2) _
      = Except.map _ (Except.bind ((x.asking false).compileOperations document.operations r.2) _)
    rw [x.compileOperations_asking]
    cases (x.asking false).compileOperations document.operations r.2 <;> rfl

end ResponseTypes
