import Mathlib.Data.List.Permutation
import Mathlib.Order.Bounds.Defs
import ResponseTypes.Proofs.Compilation.Making
import ResponseTypes.Proofs.Compilation.Needing

/-!
# What a document needs

Compiling threads the types used through all of a document.  What it compiles does not depend on
them, though, nor does whether it succeeds; and to the types used it adds what is needed by the
fields and variables it meets, no matter what is there already.  So, in the end, they are the least
set of names that covers the document and is closed under the fields of input objects.

## What is here

* `Schema.Selects` — the types of the fields that are selected; `Document.Mentions` — all types that
  a document mentions.
* `Schema.Brings` — a part of the compilation yields something and gathers what some types need;
  `Brings.bind`, and `CompilationInput.brings_compileSelection` with the lemmas that follow for the
  other parts.
* `Document.Covered`, and `typesUsed_isLeast`.
-/

set_option autoImplicit false

namespace ResponseTypes

/-! ## What is selected -/

namespace Schema

/-- A field of a type is declared with a type; that every type has a name is not declared. -/
def Declares (s : Schema) (parent name : String) (t : ResolvedType) : Prop :=
  name ≠ typenameField ∧ ∃ d, s.field? parent name = some d ∧ s.resolve d.type = .ok t

/-- A field with this type is selected: directly, in the selections on the value of a field, if they
can be made, or in a fragment written in place. -/
inductive Selects (s : Schema) : String → List SelectionNode → ResolvedType → Prop where
  | field {parent : String} {nodes below : List SelectionNode} {name : String}
    {alias? : Option String} {t : ResolvedType} (hmem : .field name alias? below ∈ nodes)
    (ht : s.Declares parent name t) : Selects s parent nodes t
  | inside {parent : String} {nodes below : List SelectionNode} {name : String}
    {alias? : Option String} {t t' : ResolvedType} (hmem : .field name alias? below ∈ nodes)
    (ht : s.Declares parent name t) (hcomposite : t.isComposite = true)
    (h : Selects s t.innermostName below t') : Selects s parent nodes t'
  | inline {parent : String} {nodes below : List SelectionNode} {typeCondition? : Option String}
    {t : ResolvedType} (hmem : .inline typeCondition? below ∈ nodes)
    (h : Selects s (typeCondition?.getD parent) below t) : Selects s parent nodes t

variable {s : Schema} {parent name : String} {t : ResolvedType} {node : SelectionNode}
  {nodes nodes' below : List SelectionNode}

theorem Declares.unique {t' : ResolvedType} (h : s.Declares parent name t)
    (h' : s.Declares parent name t') : t = t' := by
  obtain ⟨-, d, hd, ht⟩ := h
  obtain ⟨-, d', hd', ht'⟩ := h'
  cases hd.symm.trans hd'
  cases ht.symm.trans ht'
  rfl

theorem Selects.mono (h : s.Selects parent nodes t) (hsub : nodes ⊆ nodes') :
    s.Selects parent nodes' t := by
  cases h with
  | field hmem ht => exact .field (hsub hmem) ht
  | inside hmem ht hcomposite h => exact .inside (hsub hmem) ht hcomposite h
  | inline hmem h => exact .inline (hsub hmem) h

theorem not_selects_nil : ¬ s.Selects parent [] t := by
  rintro (⟨hmem, -⟩ | ⟨hmem, -, -, -⟩ | ⟨hmem, -⟩) <;> cases hmem

theorem selects_cons_iff :
    s.Selects parent (node :: nodes) t ↔ s.Selects parent [node] t ∨ s.Selects parent nodes t := by
  constructor
  · have hsplit : ∀ {other : SelectionNode}, other ∈ node :: nodes →
        s.Selects parent [other] t → s.Selects parent [node] t ∨ s.Selects parent nodes t := by
      intro other hother h
      rcases List.mem_cons.1 hother with rfl | hother
      · exact .inl h
      · exact .inr (h.mono (List.cons_subset.2 ⟨hother, List.nil_subset _⟩))
    intro h
    cases h with
    | field hmem ht => exact hsplit hmem (.field List.mem_cons_self ht)
    | inside hmem ht hcomposite h => exact hsplit hmem (.inside List.mem_cons_self ht hcomposite h)
    | inline hmem h => exact hsplit hmem (.inline List.mem_cons_self h)
  · rintro (h | h)
    · exact h.mono (List.cons_subset.2 ⟨List.mem_cons_self, List.nil_subset _⟩)
    · exact h.mono (List.subset_cons_self _ _)

theorem selects_field_iff {alias? : Option String} :
    s.Selects parent [.field name alias? below] t ↔ s.Declares parent name t ∨
      ∃ t', s.Declares parent name t' ∧ t'.isComposite = true ∧
        s.Selects t'.innermostName below t := by
  constructor
  · rintro (⟨hmem, ht⟩ | ⟨hmem, ht, hcomposite, h⟩ | ⟨hmem, -⟩)
    · cases List.mem_singleton.1 hmem
      exact .inl ht
    · cases List.mem_singleton.1 hmem
      exact .inr ⟨_, ht, hcomposite, h⟩
    · cases List.mem_singleton.1 hmem
  · rintro (ht | ⟨t', ht, hcomposite, h⟩)
    · exact .field List.mem_cons_self ht
    · exact .inside List.mem_cons_self ht hcomposite h

theorem not_selects_spread {fragment : String} : ¬ s.Selects parent [.spread fragment] t := by
  rintro (⟨hmem, -⟩ | ⟨hmem, -, -, -⟩ | ⟨hmem, -⟩) <;> cases List.mem_singleton.1 hmem

theorem selects_inline_iff {typeCondition? : Option String} :
    s.Selects parent [.inline typeCondition? below] t ↔
      s.Selects (typeCondition?.getD parent) below t := by
  constructor
  · rintro (⟨hmem, -⟩ | ⟨hmem, -, -, -⟩ | ⟨hmem, h⟩) <;> cases List.mem_singleton.1 hmem
    exact h
  · exact .inline List.mem_cons_self

/-- An operation mentions a type: one of its variables has it, or a field that is selected on the
type it starts from. -/
def Mentions (s : Schema) (o : OperationNode) (t : ResolvedType) : Prop :=
  (∃ v ∈ o.vars, s.resolve v.type = .ok t) ∨
    ∃ kind root, o.kind? = some kind ∧ s.rootType? kind = some root ∧ s.Selects root o.selections t

/-! ## Parts of the compilation -/

/-- Whatever has been gathered before, a part of the compilation yields the same, and gathers what
some types need. -/
def Brings {α : Type} (s : Schema) (m : UsedTypes → Except GenerationError (α × UsedTypes)) (a : α)
    (types : ResolvedType → Prop) : Prop :=
  ∀ u, s.Gathered [] u → ∃ u', m u = .ok (a, u') ∧ s.Gathers u u' ∧
    ∀ name, name ∈ u' ↔ name ∈ u ∨ ∃ t, types t ∧ s.Needs t name

namespace Brings

variable {α β : Type} {m : UsedTypes → Except GenerationError (α × UsedTypes)}
  {k : α → UsedTypes → Except GenerationError (β × UsedTypes)} {a : α} {b : β}
  {types types' : ResolvedType → Prop} {u u' : UsedTypes}

theorem congr (h : s.Brings m a types) (htypes : ∀ t, types t ↔ types' t) :
    s.Brings m a types' := by
  obtain rfl : types = types' := funext fun t => propext (htypes t)
  exact h

theorem pure (a : α) (hnone : ∀ t, ¬ types t) : s.Brings (fun u => .ok (a, u)) a types := by
  intro u hu
  refine ⟨u, rfl, .refl hu, fun name => ?_⟩
  simp only [hnone, false_and, exists_false, or_false]

/-- **Using a type, and then one part more.** -/
theorem use_bind {ref : TypeRef} {t : ResolvedType} (hu : s.Gathered [] u)
    (ht : s.resolve ref = .ok t) (huse : s.use t u = .ok u')
    {m : UsedTypes → Except GenerationError (α × UsedTypes)} (h : s.Brings m a types) :
    s.Brings (fun u => SchemaError.lift (s.use t u) >>= m) a fun t' => t' = t ∨ types t' := by
  intro v hv
  have hcomplete := (exists_use_iff hu ht).1 ⟨u', huse⟩
  obtain ⟨v', huse'⟩ := (exists_use_iff hv ht).2 hcomplete
  have hgathers := (use_spec hv ht huse').1
  obtain ⟨w, hm, hgathers', hnames⟩ := h v' hgathers.gathered
  refine ⟨w, ?_, hgathers.trans hgathers', fun name => ?_⟩
  · beta_reduce
    rw [huse']
    exact hm
  · rw [hnames, mem_use_iff hv ht huse', or_assoc]
    simp only [or_and_right, exists_or, exists_eq_left]

/-- **One part after the other.** -/
theorem bind (h : s.Brings m a types) (h' : s.Brings (k a) b types') :
    s.Brings (fun u => m u >>= fun r => k r.1 r.2) b fun t => types t ∨ types' t := by
  intro u hu
  obtain ⟨v, hm, hgathers, hnames⟩ := h u hu
  obtain ⟨w, hk, hgathers', hnames'⟩ := h' v hgathers.gathered
  refine ⟨w, ?_, hgathers.trans hgathers', fun name => ?_⟩
  · beta_reduce
    rw [hm]
    exact hk
  · rw [hnames', hnames, or_assoc]
    simp only [or_and_right, exists_or]

theorem map (h : s.Brings m a types) (f : α → β) :
    s.Brings (fun u => m u >>= fun r => .ok (f r.1, r.2)) (f a) types := by
  have hpure : s.Brings (fun u => .ok (f a, u)) (f a) fun _ => False := .pure (f a) (by simp)
  exact (h.bind (k := fun a u => .ok (f a, u)) hpure).congr (by simp)

theorem gathers (h : s.Brings m a types) (hu : s.Gathered [] u) {a' : α}
    (hm : m u = .ok (a', u')) : a' = a ∧ s.Gathers u u' ∧
      ∀ name, name ∈ u' ↔ name ∈ u ∨ ∃ t, types t ∧ s.Needs t name := by
  obtain ⟨v, hv, hgathers, hnames⟩ := h u hu
  cases hm.symm.trans hv
  exact ⟨rfl, hgathers, hnames⟩

end Brings
end Schema

/-! ## Selections -/

namespace CompilationInput

variable {x : CompilationInput} {parent : String} {u u' : UsedTypes}

/-- A field that is declared has the declared type. -/
theorem Types.eq_of_declares {name : String} {alias? : Option String} {f : Field}
    {t : ResolvedType} (h : x.Types parent name alias? f) (ht : x.schema.Declares parent name t) :
    f.type = t := by
  obtain ⟨hname, d, hd, ht⟩ := ht
  cases h with
  | typename hname' => exact absurd hname' hname
  | declared _ hd' ht' =>
    cases hd.symm.trans hd'
    cases ht.symm.trans ht'
    rfl

/-- A field with selections on its value is declared. -/
theorem Types.declares {name : String} {alias? : Option String} {f : Field}
    (h : x.Types parent name alias? f) (hcomposite : f.type.isComposite = true) :
    x.schema.Declares parent name f.type := by
  cases h with
  | typename => cases hcomposite
  | declared hname hd ht => exact ⟨hname, _, hd, ht⟩

theorem brings_compileField (hu : x.schema.Gathered [] u) {name : String}
    {alias? : Option String} {f : Field} (h : x.compileField parent name alias? u = .ok (f, u')) :
    x.schema.Brings (x.compileField parent name alias?) f (x.schema.Declares parent name) := by
  by_cases hname : name = typenameField
  · have heq : x.compileField parent name alias?
        = fun u => .ok ({ Field.typename with alias? }, u) :=
      funext fun u => by rw [compileField, if_pos hname]
    rw [heq] at h ⊢
    cases h
    exact .pure _ fun t ht => ht.1 hname
  · cases hd : x.schema.field? parent name with
    | none =>
      rw [compileField, if_neg hname, hd] at h
      cases h
    | some d =>
      have heq : x.compileField parent name alias? = fun u => do
          let type ← SchemaError.lift (x.schema.resolve d.type)
          let u ← SchemaError.lift (x.schema.use type u)
          return ({ name, alias?, type, description? := d.description? }, u) :=
        funext fun u => by rw [compileField, if_neg hname, hd]
      rw [heq] at h ⊢
      obtain ⟨t, ht, h⟩ := bind_eq_ok_iff.1 h
      obtain ⟨v, huse, h⟩ := bind_eq_ok_iff.1 h
      cases h
      rw [lift_eq_ok_iff] at ht huse
      simp only [ht]
      refine (Schema.Brings.use_bind hu ht huse (.pure _ (fun _ => id))).congr fun t' => ?_
      rw [or_false]
      constructor
      · rintro rfl
        exact ⟨hname, d, hd, ht⟩
      · intro ht'
        exact ht'.unique ⟨hname, d, hd, ht⟩

/-- What becomes of a field that is selected with selections on its value: the second step of
compiling it. -/
def compileBelow (x : CompilationInput) (nodes : List SelectionNode) (f : Field) (u : UsedTypes) :
    Except GenerationError (Selection × UsedTypes) :=
  if f.type.isComposite then do
    let (selections, u) ← x.compileSelections f.type.innermostName nodes u
    return (.branch f (x.setOf f.type.innermostName nodes selections), u)
  else return (.leaf f, u)

theorem compileSelection_field (x : CompilationInput) (parent name : String)
    (alias? : Option String) (nodes : List SelectionNode) :
    x.compileSelection parent (.field name alias? nodes) = fun u =>
      x.compileField parent name alias? u >>= fun r => x.compileBelow nodes r.1 r.2 :=
  funext fun u => by rw [compileSelection]; rfl

theorem compileSelections_cons (x : CompilationInput) (parent : String) (node : SelectionNode)
    (nodes : List SelectionNode) :
    x.compileSelections parent (node :: nodes) = fun u =>
      x.compileSelection parent node u >>= fun r =>
        x.compileSelections parent nodes r.2 >>= fun t => .ok (r.1 :: t.1, t.2) :=
  funext fun u => by rw [compileSelections]; rfl

theorem compileSelection_inline (x : CompilationInput) (parent : String)
    (typeCondition? : Option String) (nodes : List SelectionNode)
    (hknown : x.schema.hasType (typeCondition?.getD parent) = true) :
    x.compileSelection parent (.inline typeCondition? nodes) = fun u =>
      x.compileSelections (typeCondition?.getD parent) nodes u >>= fun r =>
        .ok (.inline (typeCondition?.getD parent)
          (x.schema.possibleTypes (typeCondition?.getD parent))
          (x.setOf (typeCondition?.getD parent) nodes r.1), r.2) := by
  funext u
  rw [compileSelection]
  exact if_pos hknown

mutual

/-- **One selection** yields the same whatever has been gathered, and gathers what is needed by the
fields that are selected. -/
theorem brings_compileSelection {parent : String} {u u' : UsedTypes} {s : Selection} :
    (node : SelectionNode) → x.schema.Gathered [] u →
      x.compileSelection parent node u = .ok (s, u') →
        x.schema.Brings (x.compileSelection parent node) s (x.schema.Selects parent [node])
  | .field name alias? nodes, hu, h => by
    rw [compileSelection_field] at h ⊢
    obtain ⟨⟨f, v⟩, hf, h⟩ := bind_eq_ok_iff.1 h
    have hfield := brings_compileField hu hf
    obtain ⟨-, hgathers, -⟩ := hfield.gathers hu hf
    have htypes := types_of_compileField hf
    by_cases hcomposite : f.type.isComposite = true
    · have hbelow : x.compileBelow nodes f = fun u =>
          x.compileSelections f.type.innermostName nodes u >>= fun r =>
            .ok (.branch f (x.setOf f.type.innermostName nodes r.1), r.2) :=
        funext fun u => if_pos hcomposite
      simp only [hbelow] at h
      obtain ⟨⟨selections, w⟩, hselections, h⟩ := bind_eq_ok_iff.1 h
      cases h
      have hnodes := brings_compileSelections nodes hgathers.gathered hselections
      have hbranch := hnodes.map fun selections =>
        Selection.branch f (x.setOf f.type.innermostName nodes selections)
      rw [← hbelow] at hbranch
      refine (hfield.bind hbranch).congr fun t => ?_
      rw [Schema.selects_field_iff]
      refine or_congr_right ⟨fun hsel => ⟨f.type, htypes.declares hcomposite, hcomposite, hsel⟩, ?_⟩
      rintro ⟨t', ht', -, hsel⟩
      rwa [htypes.eq_of_declares ht']
    · have hbelow : x.compileBelow nodes f = fun u => .ok (.leaf f, u) :=
        funext fun u => if_neg hcomposite
      simp only [hbelow] at h
      cases h
      have hleaf : x.schema.Brings (x.compileBelow nodes f) (.leaf f) fun _ => False := by
        rw [hbelow]
        exact .pure _ fun _ => id
      refine (hfield.bind hleaf).congr fun t => ?_
      rw [Schema.selects_field_iff]
      refine or_congr_right ⟨False.elim, ?_⟩
      rintro ⟨t', ht', hcomposite', -⟩
      rw [← htypes.eq_of_declares ht'] at hcomposite'
      exact hcomposite hcomposite'
  | .spread name, hu, h => by
    rw [compileSelection] at h
    split at h
    · cases h
    · rename_i f hf
      cases h
      have heq : x.compileSelection parent (.spread name) = fun u =>
          .ok (.spread name f.typeCondition (x.schema.possibleTypes f.typeCondition), u) :=
        funext fun u => by rw [compileSelection, hf]
      rw [heq]
      exact .pure _ fun _ => Schema.not_selects_spread
  | .inline typeCondition? nodes, hu, h => by
    by_cases hknown : x.schema.hasType (typeCondition?.getD parent) = true
    · rw [compileSelection_inline x parent typeCondition? nodes hknown] at h ⊢
      obtain ⟨⟨selections, w⟩, hselections, h⟩ := bind_eq_ok_iff.1 h
      cases h
      exact ((brings_compileSelections nodes hu hselections).map fun selections =>
        Selection.inline (typeCondition?.getD parent)
          (x.schema.possibleTypes (typeCondition?.getD parent))
          (x.setOf (typeCondition?.getD parent) nodes selections)).congr fun _ =>
            Schema.selects_inline_iff.symm
    · rw [compileSelection] at h
      simp only [if_neg hknown] at h
      cases h

theorem brings_compileSelections {parent : String} {u u' : UsedTypes}
    {selections : List Selection} :
    (nodes : List SelectionNode) → x.schema.Gathered [] u →
      x.compileSelections parent nodes u = .ok (selections, u') →
        x.schema.Brings (x.compileSelections parent nodes) selections
          (x.schema.Selects parent nodes)
  | [], hu, h => by
    have heq : x.compileSelections parent [] = fun u => .ok ([], u) :=
      funext fun u => by rw [compileSelections]
    rw [heq] at h ⊢
    cases h
    exact .pure _ fun _ => Schema.not_selects_nil
  | node :: nodes, hu, h => by
    rw [compileSelections_cons] at h ⊢
    obtain ⟨⟨s, v⟩, hs, h⟩ := bind_eq_ok_iff.1 h
    obtain ⟨⟨rest, w⟩, hrest, h⟩ := bind_eq_ok_iff.1 h
    cases h
    have hnode := brings_compileSelection node hu hs
    obtain ⟨-, hgathers, -⟩ := hnode.gathers hu hs
    have hnodes := brings_compileSelections nodes hgathers.gathered hrest
    exact (hnode.bind (k := fun s u => x.compileSelections parent nodes u >>= fun t =>
      .ok (s :: t.1, t.2)) (hnodes.map (s :: ·))).congr fun _ => Schema.selects_cons_iff.symm

end

theorem brings_compileSet {nodes : List SelectionNode} {set : SelectionSet}
    (hu : x.schema.Gathered [] u) (h : x.compileSet parent nodes u = .ok (set, u')) :
    x.schema.Brings (x.compileSet parent nodes) set (x.schema.Selects parent nodes) := by
  obtain ⟨⟨selections, v⟩, hselections, h⟩ := bind_eq_ok_iff.1 h
  cases h
  exact (brings_compileSelections nodes hu hselections).map (x.setOf parent nodes)

/-! ## Fragments -/

theorem brings_compileFragment {node : FragmentNode} {f : Fragment} (hu : x.schema.Gathered [] u)
    (h : x.compileFragment node u = .ok (f, u')) :
    x.schema.Brings (x.compileFragment node) f
      (x.schema.Selects node.typeCondition node.selections) := by
  by_cases hknown : x.schema.hasType node.typeCondition = true
  · have heq : x.compileFragment node = fun u =>
        x.compileSet node.typeCondition node.selections u >>= fun r =>
          .ok ({ name := node.name, typeCondition := node.typeCondition, set := r.1 }, r.2) :=
      funext fun u => if_pos hknown
    rw [heq] at h ⊢
    obtain ⟨⟨set, v⟩, hset, h⟩ := bind_eq_ok_iff.1 h
    cases h
    exact (brings_compileSet hu hset).map fun set =>
      Fragment.mk node.name node.typeCondition set
  · rw [compileFragment, if_neg hknown] at h
    cases h

/-- A fragment that is compiled brings what its fields need, whatever has been gathered before. -/
def BringsFragment (x : CompilationInput) (node : FragmentNode) (f : Fragment) : Prop :=
  x.schema.Brings (x.compileFragment node) f
    (x.schema.Selects node.typeCondition node.selections)

theorem forall₂_compileFragments {nodes : List FragmentNode} {r r' : FragmentRegistry}
    (hu : x.schema.Gathered [] u) (h : x.compileFragments nodes r u = .ok (r', u')) :
    ∃ fs, List.Forall₂ x.BringsFragment nodes fs ∧
      r' = fs.foldl (fun r f => FragmentRegistry.insert f r) r := by
  induction nodes generalizing r u with
  | nil =>
    rw [compileFragments] at h
    cases h
    exact ⟨[], .nil, rfl⟩
  | cons node nodes ih =>
    rw [compileFragments] at h
    obtain ⟨⟨f, v⟩, hf, h⟩ := bind_eq_ok_iff.1 h
    have hnode := brings_compileFragment hu hf
    obtain ⟨-, hgathers, -⟩ := hnode.gathers hu hf
    obtain ⟨fs, hfs, rfl⟩ := ih hgathers.gathered h
    exact ⟨f :: fs, .cons hnode hfs, rfl⟩

/-- **All fragments** are compiled one by one. -/
theorem brings_compileFragments {nodes : List FragmentNode} {fs : List Fragment}
    (h : List.Forall₂ x.BringsFragment nodes fs) (r : FragmentRegistry) :
    x.schema.Brings (x.compileFragments nodes r)
      (fs.foldl (fun r f => FragmentRegistry.insert f r) r)
      fun t => ∃ node ∈ nodes, x.schema.Selects node.typeCondition node.selections t := by
  induction h generalizing r with
  | nil =>
    have heq : x.compileFragments [] r = fun u => .ok (r, u) :=
      funext fun u => by rw [compileFragments]
    rw [heq]
    exact .pure _ fun t => by simp
  | @cons node f nodes fs hnode _ ih =>
    have heq : x.compileFragments (node :: nodes) r = fun u =>
        x.compileFragment node u >>= fun s =>
          x.compileFragments nodes (FragmentRegistry.insert s.1 r) s.2 :=
      funext fun u => by rw [compileFragments]
    rw [heq]
    exact (hnode.bind (k := fun f => x.compileFragments nodes (FragmentRegistry.insert f r))
      (ih _)).congr fun t => by simp

/-! ## Operations -/

theorem brings_compileVariables {nodes : List VariableNode} {vars : List Variable}
    (hu : x.schema.Gathered [] u) (h : x.compileVariables nodes u = .ok (vars, u')) :
    x.schema.Brings (x.compileVariables nodes) vars
      fun t => ∃ v ∈ nodes, x.schema.resolve v.type = .ok t := by
  induction nodes generalizing vars u with
  | nil =>
    have heq : x.compileVariables [] = fun u => .ok ([], u) :=
      funext fun u => by rw [compileVariables]
    rw [heq] at h ⊢
    cases h
    exact .pure _ fun t => by simp
  | cons node nodes ih =>
    rw [compileVariables] at h
    obtain ⟨t, ht, h⟩ := bind_eq_ok_iff.1 h
    obtain ⟨v, huse, h⟩ := bind_eq_ok_iff.1 h
    obtain ⟨⟨rest, w⟩, hrest, h⟩ := bind_eq_ok_iff.1 h
    cases h
    rw [lift_eq_ok_iff] at ht huse
    have hnodes := ih (Schema.use_spec hu ht huse).1.gathered hrest
    have heq : x.compileVariables (node :: nodes) = fun u =>
        SchemaError.lift (x.schema.use t u) >>= fun u =>
          x.compileVariables nodes u >>= fun r => .ok (⟨node.name, t⟩ :: r.1, r.2) :=
      funext fun u => by rw [compileVariables, ht]; rfl
    rw [heq]
    have hvars := hnodes.map fun vars => (⟨node.name, t⟩ : Variable) :: vars
    refine (Schema.Brings.use_bind hu ht huse hvars).congr fun t' => ?_
    rw [List.exists_mem_cons_iff, ht, Except.ok.injEq, eq_comm]

theorem brings_compileOperation {node : OperationNode} {o : Operation}
    (hu : x.schema.Gathered [] u) (h : x.compileOperation node u = .ok (o, u')) :
    x.schema.Brings (x.compileOperation node) o (x.schema.Mentions node) := by
  cases hkind : node.kind? with
  | none =>
    rw [compileOperation, hkind] at h
    cases h
  | some kind =>
    cases hroot : x.schema.rootType? kind with
    | none =>
      rw [compileOperation, hkind] at h
      simp only [hroot] at h
      cases h
    | some root =>
      have heq : x.compileOperation node = fun u =>
          x.compileVariables node.vars u >>= fun r =>
            x.compileSet root node.selections r.2 >>= fun t =>
              .ok (⟨node.name, kind, root, r.1, t.1⟩, t.2) :=
        funext fun u => by
          rw [compileOperation, hkind]
          simp only [hroot]
          rfl
      rw [heq] at h ⊢
      obtain ⟨⟨vars, v⟩, hvars, h⟩ := bind_eq_ok_iff.1 h
      obtain ⟨⟨set, w⟩, hset, h⟩ := bind_eq_ok_iff.1 h
      cases h
      have hnodes := brings_compileVariables hu hvars
      obtain ⟨-, hgathers, -⟩ := hnodes.gathers hu hvars
      have hbelow := (brings_compileSet hgathers.gathered hset).map
        fun set => Operation.mk node.name kind root vars set
      refine (hnodes.bind (k := fun vars u => x.compileSet root node.selections u >>= fun t =>
        .ok (Operation.mk node.name kind root vars t.1, t.2)) hbelow).congr fun t => ?_
      refine or_congr_right ⟨fun h => ⟨kind, root, hkind, hroot, h⟩, ?_⟩
      rintro ⟨kind', root', hkind', hroot', h⟩
      cases hkind.symm.trans hkind'
      cases hroot.symm.trans hroot'
      exact h

/-- **All operations** are compiled one by one. -/
theorem brings_compileOperations {nodes : List OperationNode} {operations : List Operation}
    (hu : x.schema.Gathered [] u) (h : x.compileOperations nodes u = .ok (operations, u')) :
    x.schema.Brings (x.compileOperations nodes) operations
      fun t => ∃ node ∈ nodes, x.schema.Mentions node t := by
  induction nodes generalizing operations u with
  | nil =>
    have heq : x.compileOperations [] = fun u => .ok ([], u) :=
      funext fun u => by rw [compileOperations]
    rw [heq] at h ⊢
    cases h
    exact .pure _ fun t => by simp
  | cons node nodes ih =>
    have heq : x.compileOperations (node :: nodes) = fun u =>
        x.compileOperation node u >>= fun r =>
          x.compileOperations nodes r.2 >>= fun t => .ok (r.1 :: t.1, t.2) :=
      funext fun u => by rw [compileOperations]; rfl
    rw [heq] at h ⊢
    obtain ⟨⟨o, v⟩, ho, h⟩ := bind_eq_ok_iff.1 h
    obtain ⟨⟨rest, w⟩, hrest, h⟩ := bind_eq_ok_iff.1 h
    cases h
    have hnode := brings_compileOperation hu ho
    obtain ⟨-, hgathers, -⟩ := hnode.gathers hu ho
    have hnodes := ih hgathers.gathered hrest
    exact (hnode.bind (k := fun o u => x.compileOperations nodes u >>= fun t =>
      .ok (o :: t.1, t.2)) (hnodes.map (o :: ·))).congr fun t => by simp

end CompilationInput

/-! ## Whole documents -/

/-- A document mentions a type: one of its operations does, or a field that is selected in one of
its fragments has it. -/
def Document.Mentions (s : Schema) (d : Document) (t : ResolvedType) : Prop :=
  (∃ f ∈ d.fragments, s.Selects f.typeCondition f.selections t) ∨ ∃ o ∈ d.operations, s.Mentions o t

/-- Some names cover a document: the enums and input objects at the heart of all types it mentions
are among them, and those at the heart of the fields of an input object if that is among them. -/
structure Document.Covered (s : Schema) (d : Document) (names : Set String) : Prop where
  mentioned : ∀ t, d.Mentions s t → t.innermostKind = .enum ∨ t.innermostKind = .inputObject →
    t.innermostName ∈ names
  closed : ∀ name ∈ names, ∀ i, s.get? name = some (.inputObject i) → ∀ f ∈ i.fields, ∀ t,
    s.resolve f.type = .ok t → t.innermostKind = .enum ∨ t.innermostKind = .inputObject →
      t.innermostName ∈ names

/-- Names that cover a document hold all that is needed. -/
theorem Schema.Needs.mem_of_covered {s : Schema} {d : Document} {names : Set String}
    (hcovered : d.Covered s names) {t : ResolvedType} {name : String} (h : s.Needs t name)
    (ht : t.innermostKind = .enum ∨ t.innermostKind = .inputObject → t.innermostName ∈ names) :
    name ∈ names := by
  induction h with
  | heart hkind => exact ht hkind
  | field hkind hget hf ht' _ ih =>
    exact ih (hcovered.closed _ (ht (.inr hkind)) _ hget _ hf _ ht')

/-- **What compiling a document gathers**: what the types need that it mentions. -/
theorem mem_typesUsed_iff {schema : Schema} {document : Document} {options : Options}
    {c : Compilation} (h : compile schema document options = .ok c) {name : String} :
    name ∈ c.typesUsed ↔ ∃ t, document.Mentions schema t ∧ schema.Needs t name := by
  obtain ⟨⟨fragments, u⟩, hfragments, h⟩ := bind_eq_ok_iff.1 h
  obtain ⟨⟨operations, u'⟩, hoperations, h⟩ := bind_eq_ok_iff.1 h
  cases h
  obtain ⟨fs, hfs, -⟩ := CompilationInput.forall₂_compileFragments schema.gathered_nil hfragments
  obtain ⟨-, hgathers, hnames⟩ :=
    (CompilationInput.brings_compileFragments hfs []).gathers schema.gathered_nil hfragments
  obtain ⟨-, -, hnames'⟩ := (CompilationInput.brings_compileOperations hgathers.gathered
    hoperations).gathers hgathers.gathered hoperations
  rw [hnames', hnames]
  simp only [List.not_mem_nil, false_or, Document.Mentions, or_and_right, exists_or]

/-- **The types used** are the least set of names that covers the document, each listed once; and
the search for them ends on every schema, however its input objects hold each other. -/
theorem typesUsed_isLeast (schema : Schema) (document : Document) (options : Options) :
    WellFounded (flip schema.Follows) ∧ ∀ c, compile schema document options = .ok c →
      c.typesUsed.Nodup ∧
        IsLeast {names | document.Covered schema names} {name | name ∈ c.typesUsed} := by
  refine ⟨schema.wellFounded_follows, fun c h => ?_⟩
  have hgathered : schema.Gathered [] c.typesUsed :=
    (operations_of_compile h).1 ▸ (sound_of_compile h).gathered
  refine ⟨hgathered.nodup, ⟨?_, ?_⟩, ?_⟩
  · exact fun t ht hkind => (mem_typesUsed_iff h).2 ⟨t, ht, .heart hkind⟩
  · intro name hname i hget f hf t ht hkind
    rcases hgathered.closed name hname i hget f hf with hahead | ⟨t', ht', haccounts⟩
    · cases hahead
    · cases ht.symm.trans ht'
      exact haccounts.used hkind
  · intro names hcovered name hname
    obtain ⟨t, ht, hneeds⟩ := (mem_typesUsed_iff h).1 hname
    exact hneeds.mem_of_covered hcovered (hcovered.mentioned t ht)

/-- Pets are sought by filters, which hold filters, and an order, which holds a filter again. -/
def kennel : Schema :=
  Schema.ofQueryType "Query"
    |>.define (.enum { name := "Species", values := [{ name := "CAT" }, { name := "DOG" }] })
    |>.define (.enum { name := "Direction", values := [{ name := "UP" }, { name := "DOWN" }] })
    |>.define (.inputObject {
      name := "Filter"
      fields := [
        { name := "not", type := .named "Filter" },
        { name := "by", type := .named "Order" }] })
    |>.define (.inputObject {
      name := "Order"
      fields := [{ name := "among", type := .list (.named "Filter") },
        { name := "direction", type := .named "Direction" }] })
    |>.define (.object {
      name := "Pet"
      fields := [{ name := "species", type := .nonNull (.named "Species") }] })
    |>.define (.object { name := "Query", fields := [{ name := "pet", type := .named "Pet" }] })

/-- A query for a pet by a filter. -/
def seek : Document where
  operations := [{
    name := "Seek"
    operationType := "query"
    vars := [{ name := "filter", type := .nonNull (.named "Filter") }]
    selections := [.field "pet" none [.field "species" none []]] }]

/-- All four enums and input objects are used. -/
theorem typesUsed_isLeast_seek :
    ∃ c, compile kennel seek {} = .ok c ∧
      c.typesUsed = ["Filter", "Order", "Direction", "Species"] ∧
        IsLeast {names | seek.Covered kennel names} {name | name ∈ c.typesUsed} := by
  obtain ⟨c, hcompile, hused⟩ : ∃ c, compile kennel seek {} = .ok c ∧
      c.typesUsed = ["Filter", "Order", "Direction", "Species"] := ⟨_, by cbv, rfl⟩
  exact ⟨c, hcompile, hused, ((typesUsed_isLeast kennel seek {}).2 c hcompile).2⟩

end ResponseTypes
