import Mathlib.Data.List.Permutation
import ResponseTypes.Proofs.Compilation.Making
import ResponseTypes.Proofs.Compilation.Needing

/-!
# Which documents compile

A document compiles if everything it names is there: the types that its operations start from, the
types of its variables, the types its fragments are for, the fragments it uses and the fields it
selects.  Nothing else can go wrong.  The compiler looks up more than that — the types of the fields
that are selected, and of the fields of input objects — but in a valid schema all of these can be
resolved, and every type that selections are made on exists.

## What is here

* `Schema.Stands` — the selections inside some selections, and the types they are made on.
* `Schema.Accepts`, `Schema.Refuses` — when a selection is in order, and what is said of it if not.
* `Document.IsWellFormed`, and `Document.Faults` — what can be said of a document that is not.
* `Schema.isUsable_of_field?` and `Schema.isUsable_of_inputField` — what the compiler looks up in
  the schema by itself is there.
* `CompilationInput.judges_compileSelection`, and the lemmas that follow for the other parts.
* `compile_spec` — well-formed documents compile and no others, and every error is a fault of the
  document.
-/

set_option autoImplicit false

namespace ResponseTypes

/-! ## Kinds of operations -/

namespace OperationKind

theorem keyword_injective : Function.Injective keyword := by
  intro kind kind' h
  cases kind <;> cases kind' <;> first | rfl | exact absurd h (by decide)

/-- The kind of a word is the one whose keyword it is. -/
theorem ofKeyword?_eq_some_iff {word : String} {kind : OperationKind} :
    ofKeyword? word = some kind ↔ kind.keyword = word := by
  constructor
  · intro h
    simpa using List.find?_some h
  · rintro rfl
    cases kind <;> rfl

theorem ofKeyword?_eq_none_iff {word : String} :
    ofKeyword? word = none ↔ ∀ kind : OperationKind, kind.keyword ≠ word := by
  simp only [Option.eq_none_iff_forall_ne_some, Ne, ofKeyword?_eq_some_iff]

end OperationKind

/-! ## Selections in order -/

namespace Schema

/-- A selection stands somewhere inside the selections on a type, and is made on a type of its own:
it is one of them, or stands inside the selections on the value of a field, if that is composite, or
in a fragment written in place. -/
inductive Stands (s : Schema) : String → List SelectionNode → String → SelectionNode → Prop where
  | here {parent : String} {nodes : List SelectionNode} {node : SelectionNode}
    (hmem : node ∈ nodes) : Stands s parent nodes parent node
  | field {parent inner name : String} {nodes below : List SelectionNode}
    {alias? : Option String} {node : SelectionNode} {f : FieldDefinition} {d : TypeDefinition}
    (hmem : .field name alias? below ∈ nodes) (hname : name ≠ typenameField)
    (hf : s.field? parent name = some f) (hd : s.get? f.type.innermost = some d)
    (hcomposite : d.kind.isComposite = true) (h : Stands s f.type.innermost below inner node) :
    Stands s parent nodes inner node
  | inline {parent inner : String} {nodes below : List SelectionNode}
    {typeCondition? : Option String} {node : SelectionNode}
    (hmem : .inline typeCondition? below ∈ nodes)
    (h : Stands s (typeCondition?.getD parent) below inner node) : Stands s parent nodes inner node

/-- A selection that is made on a type is in order: the field is the name of the type or is
declared, the fragment is one of the document, and the type it is said to be for exists. -/
def Accepts (s : Schema) (d : Document) (parent : String) : SelectionNode → Prop
  | .field name _ _ => name = typenameField ∨ ∃ f, s.field? parent name = some f
  | .spread name => ∃ f ∈ d.fragments, f.name = name
  | .inline typeCondition? _ => ∀ condition ∈ typeCondition?, s.hasType condition = true

/-- What is said of a selection on a type that is not in order. -/
inductive Refuses (s : Schema) (d : Document) (parent : String) :
    SelectionNode → GenerationError → Prop where
  | field {name : String} {alias? : Option String} {below : List SelectionNode}
    (hname : name ≠ typenameField) (hf : s.field? parent name = none) :
    Refuses s d parent (.field name alias? below) (.schema (.fieldNotFound parent name))
  | spread {name : String} (hnone : ∀ f ∈ d.fragments, f.name ≠ name) :
    Refuses s d parent (.spread name) (.schema (.fragmentNotFound name))
  | inline {condition : String} {below : List SelectionNode}
    (hunknown : s.hasType condition = false) :
    Refuses s d parent (.inline (some condition) below) (.schema (.typeNotFound condition))

/-- All selections inside those on a type are in order. -/
def AcceptsAll (s : Schema) (d : Document) (parent : String) (nodes : List SelectionNode) : Prop :=
  ∀ inner node, s.Stands parent nodes inner node → s.Accepts d inner node

/-- This is said of one of the selections inside those on a type. -/
def RefusesIn (s : Schema) (d : Document) (parent : String) (nodes : List SelectionNode)
    (e : GenerationError) : Prop :=
  ∃ inner node, s.Stands parent nodes inner node ∧ s.Refuses d inner node e

end Schema

/-! ## Documents in order -/

/-- A variable is in order if its type exists, with sound wrappers. -/
def VariableNode.IsSound (s : Schema) (v : VariableNode) : Prop :=
  v.type.WellWrapped ∧ s.hasType v.type.innermost = true

/-- A fragment is in order if its type exists, and all selections inside are in order. -/
structure FragmentNode.IsSound (s : Schema) (d : Document) (f : FragmentNode) : Prop where
  condition : s.hasType f.typeCondition = true
  selections : s.AcceptsAll d f.typeCondition f.selections

/-- What is said of a fragment that is not in order. -/
inductive FragmentNode.Faults (s : Schema) (d : Document) (f : FragmentNode) :
    GenerationError → Prop where
  | condition (hunknown : s.hasType f.typeCondition = false) :
    Faults s d f (.schema (.typeNotFound f.typeCondition))
  | selection {e : GenerationError} (h : s.RefusesIn d f.typeCondition f.selections e) :
    Faults s d f e

/-- An operation is in order if it is of a known kind, which has a type to start from, and all its
variables and all selections inside are in order. -/
structure OperationNode.IsSound (s : Schema) (d : Document) (o : OperationNode) : Prop where
  selections : ∃ (kind : OperationKind) (root : String), kind.keyword = o.operationType ∧
    s.rootType? kind = some root ∧ s.AcceptsAll d root o.selections
  vars : ∀ v ∈ o.vars, v.IsSound s

/-- What is said of an operation that is not in order. -/
inductive OperationNode.Faults (s : Schema) (d : Document) (o : OperationNode) :
    GenerationError → Prop where
  | kind (hkind : ∀ kind : OperationKind, kind.keyword ≠ o.operationType) :
    Faults s d o (.unsupportedOperationKind o.name o.operationType)
  | root {kind : OperationKind} (hkind : kind.keyword = o.operationType)
    (hroot : s.rootType? kind = none) : Faults s d o (.schema (.missingRootType kind.keyword))
  | var {v : VariableNode} {e : SchemaError} (hv : v ∈ o.vars)
    (htype : s.resolve v.type = .error e) : Faults s d o (.schema e)
  | selection {kind : OperationKind} {root : String} {e : GenerationError}
    (hkind : kind.keyword = o.operationType) (hroot : s.rootType? kind = some root)
    (h : s.RefusesIn d root o.selections e) : Faults s d o e

/-- **A document is well formed** for a schema if all its fragments and operations are in order. -/
structure Document.IsWellFormed (s : Schema) (d : Document) : Prop where
  fragments : ∀ f ∈ d.fragments, f.IsSound s d
  operations : ∀ o ∈ d.operations, o.IsSound s d

/-- **What is said of a document** that is not well formed. -/
def Document.Faults (s : Schema) (d : Document) (e : GenerationError) : Prop :=
  (∃ f ∈ d.fragments, f.Faults s d e) ∨ ∃ o ∈ d.operations, o.Faults s d e

namespace Schema

variable {s : Schema} {d : Document} {parent name : String} {node : SelectionNode}
  {nodes nodes' below : List SelectionNode}

/-! ## Inside selections -/

theorem Stands.mono {inner : String} (h : s.Stands parent nodes inner node)
    (hsub : nodes ⊆ nodes') : s.Stands parent nodes' inner node := by
  cases h with
  | here hmem => exact .here (hsub hmem)
  | field hmem hname hf hd hcomposite h => exact .field (hsub hmem) hname hf hd hcomposite h
  | inline hmem h => exact .inline (hsub hmem) h

theorem not_stands_nil {inner : String} : ¬ s.Stands parent [] inner node := by
  rintro (⟨hmem⟩ | ⟨hmem, -, -, -, -, -⟩ | ⟨hmem, -⟩) <;> cases hmem

theorem stands_cons_iff {inner : String} {other : SelectionNode} :
    s.Stands parent (node :: nodes) inner other ↔
      s.Stands parent [node] inner other ∨ s.Stands parent nodes inner other := by
  have hfirst : [node] ⊆ node :: nodes := List.cons_subset_cons node (List.nil_subset _)
  refine ⟨fun h => ?_, fun h => h.elim (·.mono hfirst) (·.mono (List.subset_cons_self _ _))⟩
  have hsplit : ∀ {top : SelectionNode}, top ∈ node :: nodes → s.Stands parent [top] inner other →
      s.Stands parent [node] inner other ∨ s.Stands parent nodes inner other := by
    intro top htop h
    rcases List.mem_cons.1 htop with htop | htop
    · exact .inl (htop ▸ h)
    · exact .inr (h.mono (List.cons_subset.2 ⟨htop, List.nil_subset _⟩))
  cases h with
  | here hmem => exact hsplit hmem (.here List.mem_cons_self)
  | field hmem hname hf hd hcomposite h =>
    exact hsplit hmem (.field List.mem_cons_self hname hf hd hcomposite h)
  | inline hmem h => exact hsplit hmem (.inline List.mem_cons_self h)

theorem acceptsAll_nil : s.AcceptsAll d parent [] :=
  fun _ _ h => absurd h not_stands_nil

theorem acceptsAll_cons_iff :
    s.AcceptsAll d parent (node :: nodes) ↔
      s.AcceptsAll d parent [node] ∧ s.AcceptsAll d parent nodes := by
  constructor
  · exact fun h => ⟨fun inner other hstands => h inner other (stands_cons_iff.2 (.inl hstands)),
      fun inner other hstands => h inner other (stands_cons_iff.2 (.inr hstands))⟩
  · rintro ⟨hfirst, hrest⟩ inner other hstands
    exact (stands_cons_iff.1 hstands).elim (hfirst inner other) (hrest inner other)

theorem RefusesIn.mono {e : GenerationError} (h : s.RefusesIn d parent nodes e)
    (hsub : nodes ⊆ nodes') : s.RefusesIn d parent nodes' e := by
  obtain ⟨inner, node, hstands, hrefuses⟩ := h
  exact ⟨inner, node, hstands.mono hsub, hrefuses⟩

/-- A field is in order, and so is all that stands in the selections on its value. -/
theorem acceptsAll_field {alias? : Option String}
    (hname : name = typenameField ∨ ∃ f, s.field? parent name = some f)
    (hbelow : ∀ f e, name ≠ typenameField → s.field? parent name = some f →
      s.get? f.type.innermost = some e → e.kind.isComposite = true →
        s.AcceptsAll d f.type.innermost below) :
    s.AcceptsAll d parent [.field name alias? below] := by
  rintro inner node (⟨hmem⟩ | ⟨hmem, hname, hf, hd, hcomposite, h⟩ | ⟨hmem, -⟩)
  · cases List.mem_singleton.1 hmem
    exact hname
  · cases List.mem_singleton.1 hmem
    exact hbelow _ _ hname hf hd hcomposite inner node h
  · cases List.mem_singleton.1 hmem

theorem acceptsAll_spread (h : ∃ f ∈ d.fragments, f.name = name) :
    s.AcceptsAll d parent [.spread name] := by
  rintro inner node (⟨hmem⟩ | ⟨hmem, -, -, -, -, -⟩ | ⟨hmem, -⟩) <;>
    cases List.mem_singleton.1 hmem
  exact h

theorem acceptsAll_inline {typeCondition? : Option String}
    (hknown : ∀ condition ∈ typeCondition?, s.hasType condition = true)
    (h : s.AcceptsAll d (typeCondition?.getD parent) below) :
    s.AcceptsAll d parent [.inline typeCondition? below] := by
  rintro inner node (⟨hmem⟩ | ⟨hmem, -, -, -, -, -⟩ | ⟨hmem, hstands⟩) <;>
    cases List.mem_singleton.1 hmem
  · exact hknown
  · exact h inner node hstands

theorem Refuses.not_accepts {e : GenerationError} (h : s.Refuses d parent node e) :
    ¬ s.Accepts d parent node := by
  cases h with
  | field hname hf =>
    rintro (htypename | ⟨f, hsome⟩)
    · exact hname htypename
    · cases hf.symm.trans hsome
  | spread hnone =>
    rintro ⟨f, hf, hname⟩
    exact hnone f hf hname
  | inline hunknown =>
    intro hknown
    exact Bool.false_ne_true (hunknown.symm.trans (hknown _ rfl))

theorem RefusesIn.not_acceptsAll {e : GenerationError} (h : s.RefusesIn d parent nodes e) :
    ¬ s.AcceptsAll d parent nodes := by
  obtain ⟨inner, node, hstands, hrefuses⟩ := h
  exact fun haccepts => hrefuses.not_accepts (haccepts inner node hstands)

/-! ## What the schema has to give -/

/-- A reference resolves, and so does all that its type needs beyond the types used. -/
def IsUsable (s : Schema) (ref : TypeRef) (u : UsedTypes) : Prop :=
  ∃ t u', s.resolve ref = .ok t ∧ s.use t u = .ok u'

section Valid

variable (hvalid : s.validate = .ok ())

include hvalid

/-- **All that a type needs can be resolved**, if the schema is valid. -/
theorem complete_of_validate (t : ResolvedType) : s.Complete t := by
  intro input _ i hget f hf
  obtain ⟨hwrapped, e, he, -⟩ := input_of_validate hvalid hget hf
  exact exists_resolve_iff.2 ⟨hwrapped, hasType_of_get? he⟩

theorem isUsable_of_wellWrapped {ref : TypeRef} (hwrapped : ref.WellWrapped)
    (hknown : s.hasType ref.innermost = true) (u : UsedTypes) : s.IsUsable ref u := by
  obtain ⟨t, ht⟩ := exists_resolve_iff.2 ⟨hwrapped, hknown⟩
  obtain ⟨u', huse⟩ := (complete_of_validate hvalid t).exists_use u
  exact ⟨t, u', ht, huse⟩

/-- **The type of every field is usable**, if the schema is valid. -/
theorem isUsable_of_field? {typeName : String} {f : FieldDefinition}
    (hf : s.field? typeName name = some f) (u : UsedTypes) : s.IsUsable f.type u := by
  obtain ⟨hwrapped, e, he, -⟩ := output_of_validate hvalid hf
  exact isUsable_of_wellWrapped hvalid hwrapped (hasType_of_get? he) u

/-- **The type of every field of an input object is usable**, if the schema is valid. -/
theorem isUsable_of_inputField {i : InputObjectDefinition}
    (hget : s.get? name = some (.inputObject i)) {f : InputField} (hf : f ∈ i.fields)
    (u : UsedTypes) : s.IsUsable f.type u := by
  obtain ⟨hwrapped, e, he, -⟩ := input_of_validate hvalid hget hf
  exact isUsable_of_wellWrapped hvalid hwrapped (hasType_of_get? he) u

end Valid

end Schema

/-! ## Parts of the compilation -/

namespace CompilationInput

variable {x : CompilationInput}

/-- A field that is declared becomes one with its type, and the selections on its value are compiled
if the type is composite. -/
theorem compileSelection_declared {parent name : String} {alias? : Option String}
    {nodes : List SelectionNode} {u v : UsedTypes} {d : FieldDefinition} {t : ResolvedType}
    (hname : name ≠ typenameField) (hd : x.schema.field? parent name = some d)
    (ht : x.schema.resolve d.type = .ok t) (huse : x.schema.use t u = .ok v) :
    x.compileSelection parent (.field name alias? nodes) u =
      let f : Field := { name, alias?, type := t, description? := d.description? }
      if t.isComposite then
        x.compileSelections t.innermostName nodes v >>= fun r =>
          .ok (.branch f (x.setOf t.innermostName nodes r.1), r.2)
      else .ok (.leaf f, v) := by
  have hfield : x.compileField parent name alias? u
      = .ok ({ name, alias?, type := t, description? := d.description? }, v) := by
    rw [compileField, if_neg hname, hd]
    simp only [ht, SchemaError.lift]
    simp only [bind, Except.bind, huse]
    rfl
  rw [compileSelection, hfield]
  rfl

mutual

/-- **One selection** on a type that exists is compiled if all selections inside are in order;
otherwise the error is one that is said of these. -/
theorem judges_compileSelection (hvalid : x.schema.validate = .ok ())
    {parent : String} (hparent : x.schema.hasType parent = true) (u : UsedTypes) :
    (node : SelectionNode) →
      Judges (x.compileSelection parent node u) (x.schema.AcceptsAll x.document parent [node])
        (x.schema.RefusesIn x.document parent [node])
  | .field name alias? nodes => by
    by_cases hname : name = typenameField
    · rw [compileSelection, compileField, if_pos hname]
      exact .ok _ (Schema.acceptsAll_field (.inl hname) fun _ _ hne => absurd hname hne)
    cases hf : x.schema.field? parent name with
    | none =>
      rw [compileSelection, compileField, if_neg hname, hf]
      exact .error ⟨parent, _, .here List.mem_cons_self, .field hname hf⟩
    | some f =>
      obtain ⟨t, v, ht, huse⟩ := Schema.isUsable_of_field? hvalid hf u
      obtain ⟨-, -, e, hget, hheart⟩ := Schema.resolve_spec ht
      have hkind : t.isComposite = e.kind.isComposite := by
        rw [ResolvedType.isComposite, ResolvedType.innermostKind, hheart]
      have hinner : t.innermostName = f.type.innermost := congrArg Prod.snd hheart
      rw [compileSelection_declared hname hf ht huse, hinner, hkind]
      by_cases hcomposite : e.kind.isComposite = true
      · have hexists : x.schema.hasType f.type.innermost = true := by
          rw [Schema.hasType_eq, hget]
          rfl
        have hnodes := judges_compileSelections hvalid hexists v nodes
        simp only [if_pos hcomposite]
        refine (hnodes.map _).imp (fun haccepts => ?_) ?_
        · refine Schema.acceptsAll_field (.inr ⟨f, hf⟩) fun g _ _ hg _ _ => ?_
          obtain rfl := Option.some.inj (hf.symm.trans hg)
          exact haccepts
        · rintro error ⟨inner, node, hstands, hrefuses⟩
          exact ⟨inner, node, .field List.mem_cons_self hname hf hget hcomposite hstands, hrefuses⟩
      · simp only [if_neg hcomposite]
        refine .ok _ (Schema.acceptsAll_field (.inr ⟨f, hf⟩) fun g e' _ hg he' hcomposite' => ?_)
        obtain rfl := Option.some.inj (hf.symm.trans hg)
        obtain rfl := Option.some.inj (hget.symm.trans he')
        exact absurd hcomposite' hcomposite
  | .spread name => by
    rw [compileSelection]
    cases hf : x.document.fragment? name with
    | none =>
      have hnone : ∀ f ∈ x.document.fragments, f.name ≠ name := by
        simpa [Document.fragment?] using hf
      exact .error ⟨parent, _, .here List.mem_cons_self, .spread hnone⟩
    | some f =>
      have hname : f.name = name := by simpa using List.find?_some hf
      exact .ok _ (Schema.acceptsAll_spread ⟨f, List.mem_of_find?_eq_some hf, hname⟩)
  | .inline typeCondition? nodes => by
    by_cases hknown : x.schema.hasType (typeCondition?.getD parent) = true
    · have hcondition : ∀ condition ∈ typeCondition?, x.schema.hasType condition = true := by
        rintro condition ⟨⟩
        exact hknown
      have hnodes := judges_compileSelections hvalid hknown u nodes
      rw [compileSelection]
      simp only [if_pos hknown]
      refine (hnodes.map _).imp (Schema.acceptsAll_inline hcondition) ?_
      rintro error ⟨inner, node, hstands, hrefuses⟩
      exact ⟨inner, node, .inline List.mem_cons_self hstands, hrefuses⟩
    · rw [compileSelection]
      simp only [if_neg hknown]
      -- The type is stated, for the one around exists.
      cases typeCondition? with
      | none => exact absurd hparent hknown
      | some condition =>
        exact .error ⟨parent, _, .here List.mem_cons_self, .inline (by simpa using hknown)⟩

theorem judges_compileSelections (hvalid : x.schema.validate = .ok ())
    {parent : String} (hparent : x.schema.hasType parent = true) (u : UsedTypes) :
    (nodes : List SelectionNode) →
      Judges (x.compileSelections parent nodes u) (x.schema.AcceptsAll x.document parent nodes)
        (x.schema.RefusesIn x.document parent nodes)
  | [] => by
    rw [compileSelections]
    exact .ok _ Schema.acceptsAll_nil
  | node :: nodes => by
    rw [compileSelections]
    refine Judges.imp (.bind ?_ fun r _ => .map ?_ _) Schema.acceptsAll_cons_iff.2 fun _ => id
    · exact (judges_compileSelection hvalid hparent u node).imp id fun _ h =>
        h.mono (List.cons_subset_cons node (List.nil_subset _))
    · exact (judges_compileSelections hvalid hparent r.2 nodes).imp id fun _ h =>
        h.mono (List.subset_cons_self _ _)

end


section Valid

variable (hvalid : x.schema.validate = .ok ())

include hvalid

theorem judges_compileSet {parent : String} (hparent : x.schema.hasType parent = true)
    (nodes : List SelectionNode) (u : UsedTypes) :
    Judges (x.compileSet parent nodes u) (x.schema.AcceptsAll x.document parent nodes)
      (x.schema.RefusesIn x.document parent nodes) :=
  (judges_compileSelections hvalid hparent u nodes).map _

/-- **One fragment** is compiled if it is in order. -/
theorem judges_compileFragment (f : FragmentNode) (u : UsedTypes) :
    Judges (x.compileFragment f u) (f.IsSound x.schema x.document)
      (f.Faults x.schema x.document) := by
  rw [compileFragment]
  by_cases hknown : x.schema.hasType f.typeCondition = true
  · rw [if_pos hknown]
    exact ((judges_compileSet hvalid hknown f.selections u).map _).imp
      (fun h => ⟨hknown, h⟩) fun _ h => .selection h
  · rw [if_neg hknown]
    exact .error (.condition (by simpa using hknown))

theorem judges_compileFragments (fs : List FragmentNode) (r : FragmentRegistry) (u : UsedTypes) :
    Judges (x.compileFragments fs r u) (∀ f ∈ fs, f.IsSound x.schema x.document)
      fun e => ∃ f ∈ fs, f.Faults x.schema x.document e := by
  induction fs generalizing r u with
  | nil => exact .ok _ (List.forall_mem_nil _)
  | cons f fs ih => exact (judges_compileFragment hvalid f u).cons fun _ _ => ih _ _

/-- **The variables** of an operation are resolved if they are in order: whatever else their types
need can be resolved. -/
theorem judges_compileVariables (vs : List VariableNode) (u : UsedTypes) :
    Judges (x.compileVariables vs u) (∀ v ∈ vs, v.IsSound x.schema)
      fun e => ∃ v ∈ vs, ∃ e', x.schema.resolve v.type = .error e' ∧ e = .schema e' := by
  induction vs generalizing u with
  | nil => exact .ok _ (List.forall_mem_nil _)
  | cons v vs ih =>
    rw [compileVariables]
    cases ht : x.schema.resolve v.type with
    | error e => exact .error ⟨v, List.mem_cons_self, e, ht, rfl⟩
    | ok t =>
      obtain ⟨u', huse⟩ := (Schema.complete_of_validate hvalid t).exists_use u
      have hsound : v.IsSound x.schema := Schema.exists_resolve_iff.1 ⟨t, ht⟩
      simp only [SchemaError.lift, bind, Except.bind, huse]
      refine ((ih u').map _).imp (fun h => List.forall_mem_cons.2 ⟨hsound, h⟩) ?_
      rintro e ⟨w, hw, he⟩
      exact ⟨w, List.mem_cons_of_mem _ hw, he⟩

/-- **One operation** is compiled if it is in order. -/
theorem judges_compileOperation (o : OperationNode) (u : UsedTypes) :
    Judges (x.compileOperation o u) (o.IsSound x.schema x.document)
      (o.Faults x.schema x.document) := by
  cases hkind : o.kind? with
  | none =>
    rw [compileOperation, hkind]
    exact .error (.kind (OperationKind.ofKeyword?_eq_none_iff.1 hkind))
  | some kind =>
    have hkeyword : kind.keyword = o.operationType := OperationKind.ofKeyword?_eq_some_iff.1 hkind
    cases hroot : x.schema.rootType? kind with
    | none =>
      simp only [compileOperation, hkind, hroot]
      exact .error (.root hkeyword hroot)
    | some root =>
      have hexists : x.schema.hasType root = true := Schema.hasType_of_rootType? hvalid hroot
      have hvars : Judges (x.compileVariables o.vars u) (∀ v ∈ o.vars, v.IsSound x.schema)
          (o.Faults x.schema x.document) := by
        refine (judges_compileVariables hvalid o.vars u).imp id ?_
        rintro _ ⟨v, hv, e, htype, rfl⟩
        exact .var hv htype
      have hset : ∀ u, Judges (x.compileSet root o.selections u)
          (x.schema.AcceptsAll x.document root o.selections) (o.Faults x.schema x.document) :=
        fun u => (judges_compileSet hvalid hexists o.selections u).imp id
          fun _ h => .selection hkeyword hroot h
      simp only [compileOperation, hkind, hroot]
      refine (Judges.bind hvars fun r _ => (hset r.2).map _).imp (fun h => ?_) fun _ => id
      exact ⟨⟨kind, root, hkeyword, hroot, h.2⟩, h.1⟩

theorem judges_compileOperations (os : List OperationNode) (u : UsedTypes) :
    Judges (x.compileOperations os u) (∀ o ∈ os, o.IsSound x.schema x.document)
      fun e => ∃ o ∈ os, o.Faults x.schema x.document e := by
  induction os generalizing u with
  | nil => exact .ok _ (List.forall_mem_nil _)
  | cons o os ih =>
    exact (judges_compileOperation hvalid o u).cons fun _ _ => (ih _).map _

end Valid
end CompilationInput

/-! ## Whole documents -/

variable {schema : Schema} {document : Document} {options : Options}

theorem FragmentNode.Faults.not_isSound {f : FragmentNode} {e : GenerationError}
    (h : f.Faults schema document e) : ¬ f.IsSound schema document := by
  cases h with
  | condition hunknown => exact fun h => Bool.false_ne_true (hunknown.symm.trans h.condition)
  | selection hrefuses => exact fun h => hrefuses.not_acceptsAll h.selections

theorem OperationNode.Faults.not_isSound {o : OperationNode} {e : GenerationError}
    (h : o.Faults schema document e) : ¬ o.IsSound schema document := by
  rintro ⟨⟨kind, root, hkind, hroot, haccepts⟩, hvars⟩
  cases h with
  | kind hunknown => exact hunknown kind hkind
  | root hkind' hnone =>
    obtain rfl := OperationKind.keyword_injective (hkind.trans hkind'.symm)
    cases hroot.symm.trans hnone
  | var hv htype =>
    obtain ⟨t, ht⟩ := Schema.exists_resolve_iff.2 (hvars _ hv)
    cases ht.symm.trans htype
  | selection hkind' hroot' hrefuses =>
    obtain rfl := OperationKind.keyword_injective (hkind.trans hkind'.symm)
    obtain rfl := Option.some.inj (hroot.symm.trans hroot')
    exact hrefuses.not_acceptsAll haccepts

/-- What is said of a document that is not well formed is never said of one that is. -/
theorem Document.Faults.not_isWellFormed {e : GenerationError}
    (h : document.Faults schema e) : ¬ document.IsWellFormed schema := by
  rcases h with ⟨f, hf, hfault⟩ | ⟨o, ho, hfault⟩
  · exact fun h => hfault.not_isSound (h.fragments f hf)
  · exact fun h => hfault.not_isSound (h.operations o ho)

theorem judges_compile (hvalid : schema.validate = .ok ()) :
    Judges (compile schema document options) (document.IsWellFormed schema)
      (document.Faults schema) := by
  let x : CompilationInput := { schema, document, options }
  have hfragments := x.judges_compileFragments hvalid document.fragments [] []
  refine Judges.imp (.bind (hfragments.imp id fun _ => .inl) fun r _ => .map
    ((x.judges_compileOperations hvalid document.operations r.2).imp id fun _ => .inr) _)
    (fun h => ⟨h.1, h.2⟩) fun _ => id

/-- **Well-formed documents compile, and no others**, in a valid schema.  Every error is a fault of
the document: the types of the fields of the schema, and of those of its input objects, can always
be resolved, with all that they need. -/
theorem compile_spec (hvalid : schema.validate = .ok ()) :
    ((∃ c, compile schema document options = .ok c) ↔ document.IsWellFormed schema) ∧
      (∀ e, compile schema document options = .error e → document.Faults schema e) ∧
      (∀ typeName name f u, schema.field? typeName name = some f → schema.IsUsable f.type u) ∧
      ∀ name d u, schema.get? name = some (.inputObject d) → ∀ f ∈ d.fields,
        schema.IsUsable f.type u := by
  have hjudges : Judges (compile schema document options) (document.IsWellFormed schema)
      (document.Faults schema) := judges_compile hvalid
  exact ⟨hjudges.exists_ok_iff fun _ => Document.Faults.not_isWellFormed, hjudges.reason_of_error,
    fun _ _ _ u hf => Schema.isUsable_of_field? hvalid hf u,
    fun _ _ u hget _ hf => Schema.isUsable_of_inputField hvalid hget hf u⟩

/-- Orders are looked for with a filter, which may hold another filter. -/
def bakery : Schema :=
  let state : InputField := { name := "state", type := .nonNull (.named "State") }
  Schema.ofQueryType "Query"
    |>.define (.enum { name := "State", values := [{ name := "OPEN" }, { name := "PAID" }] })
    |>.define (.inputObject
      { name := "Filter", fields := [state, { name := "either", type := .named "Filter" }] })
    |>.define (.object { name := "Order", fields := [{ name := "id", type := .named "ID" }] })
    |>.define (.object
      { name := "Query", fields := [{ name := "orders", type := .list (.named "Order") }] })

/-- A query for a field of the orders that a filter lets through. -/
def ordersWith (field : String) : Document where
  operations := [{
    name := "Orders"
    operationType := "query"
    vars := [{ name := "filter", type := .named "Filter" }]
    selections := [.field "orders" none [.inline none [.field field none []]]] }]

/-- Orders have an identifier, but no price. -/
theorem compile_spec_bakery :
    bakery.validate = .ok () ∧ (ordersWith "id").IsWellFormed bakery ∧
      (ordersWith "price").Faults bakery (.schema (.fieldNotFound "Order" "price")) ∧
        ¬ (ordersWith "price").IsWellFormed bakery := by
  have hvalid : bakery.validate = .ok () := by cbv
  have hprice : compile bakery (ordersWith "price") {}
      = .error (.schema (.fieldNotFound "Order" "price")) := by cbv
  obtain ⟨c, hid, -⟩ : ∃ c, compile bakery (ordersWith "id") {} = .ok c ∧
      c.typesUsed = ["Filter", "State"] := ⟨_, by cbv, rfl⟩
  have hfault := (compile_spec hvalid).2.1 _ hprice
  exact ⟨hvalid, (compile_spec hvalid).1.1 ⟨c, hid⟩, hfault,
    hfault.not_isWellFormed⟩

end ResponseTypes
