import ResponseTypes.Proofs.Compilation.UsedTypes
import ResponseTypes.Proofs.Selection.Fields
import ResponseTypes.Proofs.Selection.Uses

/-!
# Compiled documents are grounded

Everything a compiled document refers to is there.  The compiler resolves the type of every field
and gathers what it uses; it looks up every fragment in the document before it lets it be used, and
registers all fragments of the document.

The types used grow from selection to selection, and what has been accounted for stays so.

## What is here

* `CompilationInput.Grounds` — the types of selections are accounted for, and the fragments they
  use are those of the document.
* `CompilationInput.grounds_compileSelection` — one selection; the lemmas that follow go on to sets,
  fragments and operations.
* `Compilation.Sound` and `sound_of_compile`.
* `operations_of_compile` — how compiled operations come from those of the document.
-/

set_option autoImplicit false

namespace ResponseTypes

/-! ## Registered fragments -/

namespace FragmentRegistry

theorem names_cons (g : Fragment) (r : FragmentRegistry) : names (g :: r) = g.name :: names r :=
  rfl

theorem get?_cons (g : Fragment) (r : FragmentRegistry) (name : String) :
    get? (g :: r) name = if g.name = name then some g else get? r name := by
  rw [get?, List.find?_cons, ← get?]
  by_cases hname : g.name = name
  · rw [if_pos hname, beq_iff_eq.2 hname]
  · rw [if_neg hname, beq_eq_false_iff_ne.2 hname]

theorem get?_insert (f : Fragment) (r : FragmentRegistry) (name : String) :
    (insert f r).get? name = if f.name = name then some f else r.get? name := by
  induction r with
  | nil => exact get?_cons f [] name
  | cons g r ih =>
    rw [insert]
    by_cases hsame : g.name = f.name
    · rw [if_pos hsame, get?_cons, get?_cons, hsame]
      split <;> rfl
    · rw [if_neg hsame, get?_cons, ih, get?_cons]
      by_cases hname : f.name = name
      · rw [if_pos hname, if_pos hname, if_neg (hname ▸ hsame)]
      · rw [if_neg hname, if_neg hname]

theorem mem_names_insert {f : Fragment} {r : FragmentRegistry} {name : String} :
    name ∈ (insert f r).names ↔ name = f.name ∨ name ∈ r.names := by
  induction r with
  | nil => simp [insert, names]
  | cons g r ih =>
    rw [insert]
    split
    · rename_i hsame
      rw [names_cons, names_cons, hsame, List.mem_cons, or_self_left]
    · rw [names_cons, names_cons, List.mem_cons, List.mem_cons, ih, or_left_comm]

theorem nodup_names_insert {r : FragmentRegistry} (h : r.names.Nodup) (f : Fragment) :
    (insert f r).names.Nodup := by
  induction r with
  | nil => simp [insert, names]
  | cons g r ih =>
    rw [names_cons, List.nodup_cons] at h
    rw [insert]
    split
    · rename_i hsame
      rw [names_cons, List.nodup_cons, ← hsame]
      exact h
    · rename_i hsame
      rw [names_cons, List.nodup_cons, mem_names_insert]
      exact ⟨not_or.2 ⟨hsame, h.1⟩, ih h.2⟩

theorem eq_or_mem_of_mem_insert {r : FragmentRegistry} {f g : Fragment} (h : g ∈ insert f r) :
    g = f ∨ g ∈ r := by
  induction r with
  | nil => exact .inl (List.mem_singleton.1 h)
  | cons e r ih =>
    rw [insert] at h
    split at h
    · exact (List.mem_cons.1 h).imp_right (List.mem_cons_of_mem _)
    · rcases List.mem_cons.1 h with rfl | h
      · exact .inr List.mem_cons_self
      · exact (ih h).imp_right (List.mem_cons_of_mem _)

end FragmentRegistry

/-! ## Selections -/

namespace CompilationInput

/-- The types of all fields inside some selections are accounted for, and every fragment that is
used there is in the document. -/
structure Grounds (x : CompilationInput) (u : UsedTypes) (l : List Selection) : Prop where
  accounted : ∀ s ∈ l, s.All fun f _ => x.schema.Accounts u f.type
  held : ∀ k name, Selection.Uses l k name → (x.document.fragment? name).isSome = true

variable {x : CompilationInput} {u u' : UsedTypes} {parent : String} {l : List Selection}

namespace Grounds

theorem mono (h : x.Grounds u l) (hu : u ⊆ u') : x.Grounds u' l where
  accounted := fun s hs => (h.accounted s hs).imp fun _ _ haccounts => haccounts.mono hu
  held := h.held

theorem nil : x.Grounds u [] where
  accounted := by simp
  held := by simp

theorem cons {s : Selection} (hs : x.Grounds u [s]) (hl : x.Grounds u l) :
    x.Grounds u (s :: l) where
  accounted := List.forall_mem_cons.2 ⟨hs.accounted s List.mem_cons_self, hl.accounted⟩
  held := by
    intro k name huses
    rcases Selection.uses_cons_iff.1 huses with huses | huses
    · exact hs.held k name huses
    · exact hl.held k name huses

theorem leaf {f : Field} (h : x.schema.Accounts u f.type) : x.Grounds u [.leaf f] where
  accounted := List.forall_mem_singleton.2 (.leaf h)
  held := by simp

theorem branch {f : Field} {set : SelectionSet} (h : x.schema.Accounts u f.type)
    (hset : x.Grounds u set.selections) : x.Grounds u [.branch f set] where
  accounted := List.forall_mem_singleton.2 (.branch h (SelectionSet.all_iff.2 hset.accounted))
  held := by
    intro k name huses
    obtain ⟨j, -, huses⟩ := Selection.uses_branch_iff.1 huses
    exact hset.held j name huses

theorem inline {condition : String} {possible : List String} {set : SelectionSet}
    (hset : x.Grounds u set.selections) : x.Grounds u [.inline condition possible set] where
  accounted := List.forall_mem_singleton.2 (.inline (SelectionSet.all_iff.2 hset.accounted))
  held := fun k name huses => hset.held k name (Selection.uses_inline_iff.1 huses)

theorem spread {name condition : String} {possible : List String}
    (h : (x.document.fragment? name).isSome = true) :
    x.Grounds u [.spread name condition possible] where
  accounted := List.forall_mem_singleton.2 .spread
  held := by
    intro k other huses
    obtain ⟨-, rfl⟩ := Selection.uses_spread_iff.1 huses
    exact h

theorem setOf (h : x.Grounds u l) (parent : String) (nodes : List SelectionNode) :
    x.Grounds u (x.setOf parent nodes l).selections := by
  rw [CompilationInput.setOf]
  split
  · exact .cons (.leaf (x.schema.accounts_typename u)) h
  · exact h

end Grounds

theorem lift_eq_ok_iff {α : Type} {r : Except SchemaError α} {a : α} :
    SchemaError.lift r = .ok a ↔ r = .ok a := by
  cases r <;> simp [SchemaError.lift]

theorem grounds_compileField (hu : x.schema.Gathered [] u) {name : String}
    {alias? : Option String} {f : Field} (h : x.compileField parent name alias? u = .ok (f, u')) :
    x.schema.Gathers u u' ∧ x.schema.Accounts u' f.type := by
  rw [compileField] at h
  split at h
  · cases h
    exact ⟨.refl hu, x.schema.accounts_typename u⟩
  · split at h
    · cases h
    · obtain ⟨t, ht, h⟩ := bind_eq_ok_iff.1 h
      obtain ⟨v, huse, h⟩ := bind_eq_ok_iff.1 h
      cases h
      exact Schema.use_spec hu (lift_eq_ok_iff.1 ht) (lift_eq_ok_iff.1 huse)

mutual

/-- **One selection** is grounded, and gathering goes on. -/
theorem grounds_compileSelection {parent : String} {u u' : UsedTypes} {s : Selection} :
    (node : SelectionNode) → x.schema.Gathered [] u →
      x.compileSelection parent node u = .ok (s, u') → x.schema.Gathers u u' ∧ x.Grounds u' [s]
  | .field name alias? nodes, hu, h => by
    rw [compileSelection] at h
    obtain ⟨⟨f, v⟩, hf, h⟩ := bind_eq_ok_iff.1 h
    obtain ⟨hgathers, haccounts⟩ := grounds_compileField hu hf
    by_cases hcomposite : f.type.isComposite = true
    · simp only [if_pos hcomposite] at h
      obtain ⟨⟨selections, w⟩, hselections, h⟩ := bind_eq_ok_iff.1 h
      cases h
      obtain ⟨hgathers', hgrounds⟩ :=
        grounds_compileSelections nodes hgathers.gathered hselections
      exact ⟨hgathers.trans hgathers',
        .branch (haccounts.mono hgathers'.kept) (hgrounds.setOf _ _)⟩
    · simp only [if_neg hcomposite] at h
      cases h
      exact ⟨hgathers, .leaf haccounts⟩
  | .spread name, hu, h => by
    rw [compileSelection] at h
    split at h
    · cases h
    · rename_i f hf
      cases h
      exact ⟨.refl hu, .spread (Option.isSome_of_mem hf)⟩
  | .inline typeCondition? nodes, hu, h => by
    rw [compileSelection] at h
    split at h
    · obtain ⟨⟨selections, w⟩, hselections, h⟩ := bind_eq_ok_iff.1 h
      cases h
      obtain ⟨hgathers, hgrounds⟩ := grounds_compileSelections nodes hu hselections
      exact ⟨hgathers, .inline (hgrounds.setOf _ _)⟩
    · cases h

theorem grounds_compileSelections {parent : String} {u u' : UsedTypes}
    {selections : List Selection} :
    (nodes : List SelectionNode) → x.schema.Gathered [] u →
      x.compileSelections parent nodes u = .ok (selections, u') →
        x.schema.Gathers u u' ∧ x.Grounds u' selections
  | [], hu, h => by
    rw [compileSelections] at h
    cases h
    exact ⟨.refl hu, .nil⟩
  | node :: nodes, hu, h => by
    rw [compileSelections] at h
    obtain ⟨⟨s, v⟩, hs, h⟩ := bind_eq_ok_iff.1 h
    obtain ⟨⟨rest, w⟩, hrest, h⟩ := bind_eq_ok_iff.1 h
    cases h
    obtain ⟨hgathers, hgrounds⟩ := grounds_compileSelection node hu hs
    obtain ⟨hgathers', hgrounds'⟩ := grounds_compileSelections nodes hgathers.gathered hrest
    exact ⟨hgathers.trans hgathers', .cons (hgrounds.mono hgathers'.kept) hgrounds'⟩

end

theorem grounds_compileSet {nodes : List SelectionNode} {set : SelectionSet}
    (hu : x.schema.Gathered [] u) (h : x.compileSet parent nodes u = .ok (set, u')) :
    x.schema.Gathers u u' ∧ x.Grounds u' set.selections := by
  rw [compileSet] at h
  obtain ⟨⟨selections, v⟩, hselections, h⟩ := bind_eq_ok_iff.1 h
  cases h
  obtain ⟨hgathers, hgrounds⟩ := grounds_compileSelections nodes hu hselections
  exact ⟨hgathers, hgrounds.setOf _ _⟩

/-! ## Fragments -/

theorem compileFragment_spec {node : FragmentNode} {f : Fragment} (hu : x.schema.Gathered [] u)
    (h : x.compileFragment node u = .ok (f, u')) :
    f.name = node.name ∧ x.schema.Gathers u u' ∧ x.Grounds u' f.set.selections := by
  rw [compileFragment] at h
  split at h
  · obtain ⟨⟨set, v⟩, hset, h⟩ := bind_eq_ok_iff.1 h
    cases h
    exact ⟨rfl, grounds_compileSet hu hset⟩
  · cases h

theorem compileFragments_spec {nodes : List FragmentNode} {r r' : FragmentRegistry}
    (hu : x.schema.Gathered [] u) (hnodup : r.names.Nodup)
    (hr : ∀ f ∈ r, x.Grounds u f.set.selections)
    (h : x.compileFragments nodes r u = .ok (r', u')) :
    x.schema.Gathers u u' ∧ r'.names.Nodup ∧ (∀ f ∈ r', x.Grounds u' f.set.selections) ∧
      ∀ name, (∃ node ∈ nodes, node.name = name) ∨ (r.get? name).isSome = true →
        (r'.get? name).isSome = true := by
  induction nodes generalizing r u with
  | nil =>
    rw [compileFragments] at h
    cases h
    exact ⟨.refl hu, hnodup, hr, by simp⟩
  | cons node nodes ih =>
    rw [compileFragments] at h
    obtain ⟨⟨f, v⟩, hf, h⟩ := bind_eq_ok_iff.1 h
    obtain ⟨hname, hgathers, hgrounds⟩ := compileFragment_spec hu hf
    have hr' : ∀ g ∈ FragmentRegistry.insert f r, x.Grounds v g.set.selections := by
      intro g hg
      rcases FragmentRegistry.eq_or_mem_of_mem_insert hg with rfl | hg
      · exact hgrounds
      · exact (hr g hg).mono hgathers.kept
    obtain ⟨hgathers', hnodup', hall, hget⟩ :=
      ih hgathers.gathered (FragmentRegistry.nodup_names_insert hnodup f) hr' h
    refine ⟨hgathers.trans hgathers', hnodup', hall, fun name hname' => hget name ?_⟩
    rw [FragmentRegistry.get?_insert]
    by_cases hsame : f.name = name
    · right
      rw [if_pos hsame]
      rfl
    · rw [if_neg hsame]
      refine hname'.imp_left ?_
      rintro ⟨other, hother, rfl⟩
      rcases List.mem_cons.1 hother with rfl | hother
      · exact absurd hname hsame
      · exact ⟨other, hother, rfl⟩

/-! ## Operations -/

theorem compileVariables_spec {nodes : List VariableNode} {vars : List Variable}
    (hu : x.schema.Gathered [] u) (h : x.compileVariables nodes u = .ok (vars, u')) :
    x.schema.Gathers u u' ∧ ∀ v ∈ vars, x.schema.Accounts u' v.type := by
  induction nodes generalizing vars u with
  | nil =>
    rw [compileVariables] at h
    cases h
    exact ⟨.refl hu, by simp⟩
  | cons node nodes ih =>
    rw [compileVariables] at h
    obtain ⟨t, ht, h⟩ := bind_eq_ok_iff.1 h
    obtain ⟨v, huse, h⟩ := bind_eq_ok_iff.1 h
    obtain ⟨⟨rest, w⟩, hrest, h⟩ := bind_eq_ok_iff.1 h
    cases h
    obtain ⟨hgathers, haccounts⟩ :=
      Schema.use_spec hu (lift_eq_ok_iff.1 ht) (lift_eq_ok_iff.1 huse)
    obtain ⟨hgathers', hall⟩ := ih hgathers.gathered hrest
    exact ⟨hgathers.trans hgathers',
      List.forall_mem_cons.2 ⟨haccounts.mono hgathers'.kept, hall⟩⟩

theorem exists_of_compileOperation {node : OperationNode} {o : Operation}
    (h : x.compileOperation node u = .ok (o, u')) :
    o.name = node.name ∧ ∃ v, x.compileVariables node.vars u = .ok (o.vars, v) ∧
      x.compileSet o.rootType node.selections v = .ok (o.set, u') := by
  rw [compileOperation] at h
  split at h
  · cases h
  · split at h
    · cases h
    · obtain ⟨⟨vars, v⟩, hvars, h⟩ := bind_eq_ok_iff.1 h
      obtain ⟨⟨set, w⟩, hset, h⟩ := bind_eq_ok_iff.1 h
      cases h
      exact ⟨rfl, v, hvars, hset⟩

theorem compileOperations_spec {nodes : List OperationNode} {operations : List Operation}
    (hu : x.schema.Gathered [] u) (h : x.compileOperations nodes u = .ok (operations, u')) :
    x.schema.Gathers u u' ∧ ∀ o ∈ operations,
      (∀ v ∈ o.vars, x.schema.Accounts u' v.type) ∧ x.Grounds u' o.set.selections := by
  induction nodes generalizing operations u with
  | nil =>
    rw [compileOperations] at h
    cases h
    exact ⟨.refl hu, by simp⟩
  | cons node nodes ih =>
    rw [compileOperations] at h
    obtain ⟨⟨o, v⟩, ho, h⟩ := bind_eq_ok_iff.1 h
    obtain ⟨⟨rest, w⟩, hrest, h⟩ := bind_eq_ok_iff.1 h
    cases h
    obtain ⟨-, v', hvars, hset⟩ := exists_of_compileOperation ho
    obtain ⟨hgathers, hall⟩ := compileVariables_spec hu hvars
    obtain ⟨hgathers', hgrounds⟩ := grounds_compileSet hgathers.gathered hset
    obtain ⟨hgathers'', hrest'⟩ := ih hgathers'.gathered hrest
    refine ⟨(hgathers.trans hgathers').trans hgathers'', List.forall_mem_cons.2 ⟨⟨?_, ?_⟩, hrest'⟩⟩
    · exact fun v hv => ((hall v hv).mono hgathers'.kept).mono hgathers''.kept
    · exact hgrounds.mono hgathers''.kept

/-! ## Where operations come from -/

theorem resolve_of_compileVariables {nodes : List VariableNode} {vars : List Variable}
    (h : x.compileVariables nodes u = .ok (vars, u')) :
    ∀ v ∈ vars, ∃ node ∈ nodes, x.schema.resolve node.type = .ok v.type := by
  induction nodes generalizing vars u with
  | nil =>
    rw [compileVariables] at h
    cases h
    simp
  | cons node nodes ih =>
    rw [compileVariables] at h
    obtain ⟨t, ht, h⟩ := bind_eq_ok_iff.1 h
    obtain ⟨v, -, h⟩ := bind_eq_ok_iff.1 h
    obtain ⟨⟨rest, w⟩, hrest, h⟩ := bind_eq_ok_iff.1 h
    cases h
    refine List.forall_mem_cons.2 ⟨⟨node, List.mem_cons_self, lift_eq_ok_iff.1 ht⟩, ?_⟩
    intro v hv
    obtain ⟨other, hother, hresolve⟩ := ih hrest v hv
    exact ⟨other, List.mem_cons_of_mem _ hother, hresolve⟩

theorem forall₂_compileOperations {nodes : List OperationNode} {operations : List Operation}
    (h : x.compileOperations nodes u = .ok (operations, u')) :
    List.Forall₂ (fun o node => o.name = node.name ∧
        ∀ v ∈ o.vars, ∃ n ∈ node.vars, x.schema.resolve n.type = .ok v.type)
      operations nodes := by
  induction nodes generalizing operations u with
  | nil =>
    rw [compileOperations] at h
    cases h
    exact .nil
  | cons node nodes ih =>
    rw [compileOperations] at h
    obtain ⟨⟨o, v⟩, ho, h⟩ := bind_eq_ok_iff.1 h
    obtain ⟨⟨rest, w⟩, hrest, h⟩ := bind_eq_ok_iff.1 h
    cases h
    obtain ⟨hname, v', hvars, -⟩ := exists_of_compileOperation ho
    exact .cons ⟨hname, resolve_of_compileVariables hvars⟩ (ih hrest)

end CompilationInput

/-! ## Whole documents -/

/-- The types of a selection set are accounted for, and the fragments it uses are registered. -/
structure Compilation.Grounds (c : Compilation) (set : SelectionSet) : Prop where
  accounted : set.All fun f _ => c.schema.Accounts c.typesUsed f.type
  held : c.fragments.Holds set.selections

/-- Everything a compiled document refers to is there. -/
structure Compilation.Sound (c : Compilation) : Prop where
  gathered : c.schema.Gathered [] c.typesUsed
  nodup : c.fragments.names.Nodup
  fragments : ∀ f ∈ c.fragments, c.Grounds f.set
  operations : ∀ o ∈ c.operations, c.Grounds o.set
  vars : ∀ o ∈ c.operations, ∀ v ∈ o.vars, c.schema.Accounts c.typesUsed v.type

variable {schema : Schema} {document : Document} {options : Options} {c : Compilation}

/-- **Compiled documents are sound.** -/
theorem sound_of_compile (h : compile schema document options = .ok c) : c.Sound := by
  rw [compile] at h
  obtain ⟨⟨fragments, u⟩, hfragments, h⟩ := bind_eq_ok_iff.1 h
  obtain ⟨⟨operations, u'⟩, hoperations, h⟩ := bind_eq_ok_iff.1 h
  cases h
  obtain ⟨hgathers, hnodup, hground, hregistered⟩ :=
    CompilationInput.compileFragments_spec (schema.gathered_nil) (by simp [FragmentRegistry.names])
      (by simp) hfragments
  obtain ⟨hgathers', hall⟩ := CompilationInput.compileOperations_spec hgathers.gathered hoperations
  have hset : ∀ {set : SelectionSet},
      CompilationInput.Grounds { schema, document, options } u' set.selections →
        Compilation.Grounds { schema, operations, fragments, typesUsed := u' } set := by
    intro set hset
    refine ⟨SelectionSet.all_iff.2 hset.accounted, fun k name huses => ?_⟩
    obtain ⟨node, hnode⟩ := Option.isSome_iff_exists.1 (hset.held k name huses)
    refine Option.isSome_iff_exists.1 (hregistered name (.inl ⟨node, ?_, ?_⟩))
    · exact List.mem_of_find?_eq_some hnode
    · simpa using List.find?_some hnode
  exact {
    gathered := hgathers'.gathered
    nodup := hnodup
    fragments := fun f hf => hset ((hground f hf).mono hgathers'.kept)
    operations := fun o ho => hset (hall o ho).2
    vars := fun o ho => (hall o ho).1 }

/-- Operations are compiled one by one: they keep their names, and the types of their variables are
resolved. -/
theorem operations_of_compile (h : compile schema document options = .ok c) :
    c.schema = schema ∧ List.Forall₂ (fun o node => o.name = node.name ∧
        ∀ v ∈ o.vars, ∃ n ∈ node.vars, schema.resolve n.type = .ok v.type)
      c.operations document.operations := by
  rw [compile] at h
  obtain ⟨⟨fragments, u⟩, -, h⟩ := bind_eq_ok_iff.1 h
  obtain ⟨⟨operations, u'⟩, hoperations, h⟩ := bind_eq_ok_iff.1 h
  cases h
  exact ⟨rfl, CompilationInput.forall₂_compileOperations hoperations⟩

end ResponseTypes
