import Mathlib.Data.List.Perm.Basic
import ResponseTypes.Proofs.Compilation.Gathering
import ResponseTypes.Proofs.FirstOccurrence

/-!
# Documents with their fragments in another order

A fragment may be used before it is written, so the compiler looks fragments up in the document and
not among those it has compiled.  If no two fragments have one name, the lookup does not depend on
their order.  What does depend on it is what has been gathered when a fragment or an operation is
compiled; but that makes no difference to what is compiled.

## What is here

* `find?_eq_of_perm` — lookup by a key in another order.
* `CompilationInput.reorder`, with `compileSelection_reorder` and the lemmas that follow.
* `FragmentRegistry.foldl_insert_nil` — fragments of different names are registered in order.
* `Compilation.Reordered` and `reordered_of_compile`.
-/

set_option autoImplicit false

namespace ResponseTypes

/-- If the keys are different, lookup by a key does not depend on the order. -/
theorem find?_eq_of_perm {α : Type} {l l' : List α} {key : α → String} (h : l.Perm l')
    (hnodup : (l.map key).Nodup) (name : String) :
    l.find? (fun a => key a == name) = l'.find? (fun a => key a == name) := by
  ext a
  rw [find?_key_eq_some_iff hnodup, find?_key_eq_some_iff ((h.map key).nodup_iff.1 hnodup),
    h.mem_iff]

/-! ## Fragments in another order -/

namespace CompilationInput

/-- What a document is compiled from, with other fragments in the document. -/
def reorder (x : CompilationInput) (fragments : List FragmentNode) : CompilationInput :=
  { x with document := { x.document with fragments } }

variable (x : CompilationInput) {fragments : List FragmentNode}

mutual

/-- **One selection** depends on the fragments of the document only by way of lookup. -/
theorem compileSelection_reorder
    (hlookup : ∀ name, (x.reorder fragments).document.fragment? name
      = x.document.fragment? name) (parent : String) (u : UsedTypes) :
    (node : SelectionNode) →
      (x.reorder fragments).compileSelection parent node u = x.compileSelection parent node u
  | .field name alias? nodes => by
    have hfield : (x.reorder fragments).compileField parent name alias? u
        = x.compileField parent name alias? u := rfl
    have hset : ∀ inner nodes selections,
      (x.reorder fragments).setOf inner nodes selections = x.setOf inner nodes selections :=
        fun _ _ _ => rfl
    rw [compileSelection, compileSelection, hfield]
    simp only [hset, compileSelections_reorder hlookup _ _ nodes]
  | .spread name => by
    rw [compileSelection, compileSelection, hlookup]
    rfl
  | .inline typeCondition? nodes => by
    have hset : ∀ inner nodes selections,
      (x.reorder fragments).setOf inner nodes selections = x.setOf inner nodes selections :=
        fun _ _ _ => rfl
    rw [compileSelection, compileSelection]
    simp only [hset, compileSelections_reorder hlookup _ _ nodes]
    rfl

theorem compileSelections_reorder
    (hlookup : ∀ name, (x.reorder fragments).document.fragment? name
      = x.document.fragment? name) (parent : String) (u : UsedTypes) :
    (nodes : List SelectionNode) →
      (x.reorder fragments).compileSelections parent nodes u = x.compileSelections parent nodes u
  | [] => by rw [compileSelections, compileSelections]
  | node :: nodes => by
    rw [compileSelections, compileSelections, compileSelection_reorder hlookup parent u node]
    simp only [compileSelections_reorder hlookup parent _ nodes]

end

section Lookup

variable (hlookup : ∀ name, (x.reorder fragments).document.fragment? name
  = x.document.fragment? name)

include hlookup

theorem compileSet_reorder (parent : String) (nodes : List SelectionNode) (u : UsedTypes) :
    (x.reorder fragments).compileSet parent nodes u = x.compileSet parent nodes u := by
  rw [compileSet, compileSet, compileSelections_reorder x hlookup]
  rfl

theorem compileFragment_reorder (node : FragmentNode) :
    (x.reorder fragments).compileFragment node = x.compileFragment node := by
  funext u
  rw [compileFragment, compileFragment, compileSet_reorder x hlookup]
  rfl

theorem compileOperation_reorder (node : OperationNode) (u : UsedTypes) :
    (x.reorder fragments).compileOperation node u = x.compileOperation node u := by
  have hvariables : ∀ nodes u,
      (x.reorder fragments).compileVariables nodes u = x.compileVariables nodes u := by
    intro nodes
    induction nodes with
    | nil => exact fun u => by rw [compileVariables, compileVariables]
    | cons v nodes ih =>
      intro u
      rw [compileVariables, compileVariables]
      simp only [ih]
      rfl
  rw [compileOperation, compileOperation]
  simp only [hvariables, compileSet_reorder x hlookup]
  rfl

theorem compileOperations_reorder (nodes : List OperationNode) (u : UsedTypes) :
    (x.reorder fragments).compileOperations nodes u = x.compileOperations nodes u := by
  induction nodes generalizing u with
  | nil => rw [compileOperations, compileOperations]
  | cons node nodes ih =>
    rw [compileOperations, compileOperations, compileOperation_reorder x hlookup]
    simp only [ih]

theorem bringsFragment_reorder {node : FragmentNode} {f : Fragment} (h : x.BringsFragment node f) :
    (x.reorder fragments).BringsFragment node f := by
  rw [BringsFragment, compileFragment_reorder x hlookup]
  exact h

end Lookup

/-- Fragments keep their names. -/
theorem names_of_forall₂ {x : CompilationInput} {nodes : List FragmentNode} {fs : List Fragment}
    (h : List.Forall₂ x.BringsFragment nodes fs) :
    FragmentRegistry.names fs = nodes.map FragmentNode.name := by
  induction h with
  | nil => rfl
  | @cons node f nodes fs hf _ ih =>
    obtain ⟨u', hcompile, -⟩ := hf [] x.schema.gathered_nil
    rw [FragmentRegistry.names_cons, List.map_cons, ih,
      (compiles_of_compileFragment hcompile).1]

end CompilationInput

/-! ## Registration -/

namespace FragmentRegistry

theorem insert_eq_append {f : Fragment} {r : FragmentRegistry} (h : f.name ∉ r.names) :
    insert f r = r ++ [f] := by
  induction r with
  | nil => rfl
  | cons g r ih =>
    rw [names_cons, List.mem_cons, not_or] at h
    rw [insert, if_neg fun hname => h.1 hname.symm, ih h.2, List.cons_append]

theorem foldl_insert_eq_append {fs : List Fragment} {r : FragmentRegistry}
    (h : (names (r ++ fs)).Nodup) : fs.foldl (fun r f => insert f r) r = r ++ fs := by
  induction fs generalizing r with
  | nil => exact (List.append_nil r).symm
  | cons f fs ih =>
    have hname : f.name ∉ r.names := by
      rw [names, List.map_append, List.map_cons] at h
      exact fun hmem => (List.nodup_append.1 h).2.2 _ hmem _ List.mem_cons_self rfl
    have hsplit : r ++ f :: fs = r ++ [f] ++ fs := by simp
    rw [hsplit] at h ⊢
    rw [List.foldl_cons, insert_eq_append hname]
    exact ih h

/-- Fragments of different names are registered in order. -/
theorem foldl_insert_nil {fs : List Fragment} (h : (names fs).Nodup) :
    fs.foldl (fun r f => insert f r) [] = fs :=
  foldl_insert_eq_append h

end FragmentRegistry

/-! ## Whole documents -/

/-- One compilation differs from another one only in the order of the fragments and of the types
used. -/
structure Compilation.Reordered (c c' : Compilation) : Prop where
  schema : c'.schema = c.schema
  operations : c'.operations = c.operations
  fragments : c.fragments.Perm c'.fragments
  nodup : c.fragments.names.Nodup
  typesUsed : c.typesUsed.Perm c'.typesUsed

variable {schema : Schema} {document : Document} {fragments : List FragmentNode}
  {options : Options} {c : Compilation}

/-- What a document mentions does not depend on the order of its fragments. -/
theorem Document.mentions_reorder (hperm : document.fragments.Perm fragments) {t : ResolvedType} :
    ({ document with fragments } : Document).Mentions schema t ↔ document.Mentions schema t := by
  refine or_congr_left (exists_congr fun f => ?_)
  rw [hperm.mem_iff]

/-- **Compiling a document with its fragments in another order** succeeds if it does in the first
one, and yields the same but for the order of the fragments and of the types used. -/
theorem reordered_of_compile (hperm : document.fragments.Perm fragments)
    (hnodup : (document.fragments.map FragmentNode.name).Nodup)
    (h : compile schema document options = .ok c) :
    ∃ c', compile schema { document with fragments } options = .ok c' ∧ c.Reordered c' := by
  let x : CompilationInput := { schema, document, options }
  have hlookup : ∀ name, (x.reorder fragments).document.fragment? name
      = x.document.fragment? name := fun name => (find?_eq_of_perm hperm hnodup name).symm
  have hcompile := h
  obtain ⟨⟨r, u⟩, hfragments, h⟩ := bind_eq_ok_iff.1 h
  obtain ⟨⟨operations, used⟩, hoperations, h⟩ := bind_eq_ok_iff.1 h
  cases h
  obtain ⟨fs, hfs, rfl⟩ :=
    CompilationInput.forall₂_compileFragments schema.gathered_nil hfragments
  obtain ⟨-, hgathers, -⟩ :=
    (CompilationInput.brings_compileFragments hfs []).gathers schema.gathered_nil hfragments
  have hfsnodup : (FragmentRegistry.names fs).Nodup :=
    CompilationInput.names_of_forall₂ hfs ▸ hnodup
  -- The compiled fragments go along with those of the document into the other order.
  obtain ⟨fs', hfs', hperm'⟩ := List.perm_comp_forall₂ hperm.symm hfs
  have hnodup' : (FragmentRegistry.names fs').Nodup :=
    (hperm'.map Fragment.name).nodup_iff.2 hfsnodup
  obtain ⟨u', hfragments', hgathers', -⟩ := CompilationInput.brings_compileFragments
    (hfs'.imp fun _ _ hf => x.bringsFragment_reorder hlookup hf) [] [] schema.gathered_nil
  obtain ⟨used', hoperations', -⟩ := CompilationInput.brings_compileOperations hgathers.gathered
    hoperations u' hgathers'.gathered
  rw [FragmentRegistry.foldl_insert_nil hnodup'] at hfragments'
  have hcompile' : compile schema { document with fragments } options
      = .ok { schema, operations, fragments := fs', typesUsed := used' } := by
    refine bind_eq_ok_iff.2 ⟨(fs', u'), hfragments', ?_⟩
    refine bind_eq_ok_iff.2 ⟨(operations, used'), ?_, rfl⟩
    exact (x.compileOperations_reorder hlookup _ u').trans hoperations'
  refine ⟨_, hcompile', rfl, rfl, ?_, ?_, ?_⟩
  · rw [FragmentRegistry.foldl_insert_nil hfsnodup]
    exact hperm'.symm
  · rw [FragmentRegistry.foldl_insert_nil hfsnodup]
    exact hfsnodup
  · refine (List.perm_ext_iff_of_nodup (sound_of_compile hcompile).gathered.nodup
      (sound_of_compile hcompile').gathered.nodup).2 fun name => ?_
    rw [mem_typesUsed_iff hcompile, mem_typesUsed_iff hcompile']
    simp only [Document.mentions_reorder hperm]

end ResponseTypes
