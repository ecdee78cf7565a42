import ResponseTypes.Proofs.Declaration.Referring
import ResponseTypes.Proofs.Emission.Running
import ResponseTypes.Proofs.Name.Searching

/-!
# Names of nested declarations

A declaration that is nested in another one is called after it, and after a property that refers to
it.  For the naming scope holds the components of the name of the declaration that is being built:
it grows by a component when a nested declaration is begun, and shrinks back when it is finished.

## What is here

* `NameRegistry.size` — how many names are taken; `NameRegistry.StandsFor` — what may stand for a
  response key in a name.
* `Declaration.Places` — a declaration has a property that refers to a nested one, which is called
  after both; `Declaration.Linked` says so of all nested declarations, and `Declaration.PlacedIn` of
  one that is going to be nested.
* `EmissionContext.Emits.claims`, `EmissionContext.Emits.links` — names along a run.
-/

set_option autoImplicit false

namespace ResponseTypes

/-! ## Components -/

namespace NameRegistry

/-- How many names are taken. -/
def size (r : NameRegistry) : Nat :=
  r.taken.dedup.length

theorem size_mono {r r' : NameRegistry} (h : r.taken ⊆ r'.taken) : r.size ≤ r'.size :=
  ((List.nodup_dedup _).subperm fun _ hname =>
    List.mem_dedup.2 (h (List.mem_dedup.1 hname))).length_le

theorem size_insert {r : NameRegistry} {name : String} (h : name ∉ r.taken) :
    (r.insert name).size = r.size + 1 := by
  have hcontains : r.contains name = false := by
    rwa [contains, ← Bool.not_eq_true, List.contains_iff_mem]
  rw [size, insert, if_neg (by simp [hcontains]), List.dedup_cons_of_notMem h, List.length_cons,
    size]

/-- What may stand for a response key in the name of a declaration: the singular form of the key,
the key, or the singular form with a number from 2 on behind it, up to a limit. -/
def StandsFor (limit : Nat) (component key : String) : Prop :=
  component = singular key ∨ component = key ∨
    ∃ n, 2 ≤ n ∧ n ≤ limit ∧ component = numbered (singular key) n

/-- **A component that is found for a key** stands for it, and a number behind it is at most that of
the names that are taken once its own name is. -/
theorem standsFor_freeComponent (r : NameRegistry) (scope : List String) (key : String)
    {limit : Nat} (hlimit : (r.insert (joinName scope (r.freeComponent scope key))).size ≤ limit) :
    StandsFor limit (r.freeComponent scope key) key := by
  rw [size_insert (r.joinName_freeComponent_not_mem scope key)] at hlimit
  obtain ⟨i, hfound, htaken⟩ := r.exists_freeComponentFrom_eq scope (singular key) key
  rw [freeComponent, hfound]
  rcases Nat.lt_or_ge i (unnumbered (singular key) key).length with hlt | hge
  · exact (eq_or_eq_of_lt_length hlt).imp_right fun h => .inl h.2
  · have hnumber : numberAt? (singular key) key i
        = some (i - (unnumbered (singular key) key).length + 2) := if_neg (Nat.not_lt.2 hge)
    obtain ⟨k, rfl⟩ := Nat.exists_eq_add_of_le hge
    refine .inr (.inr ⟨k + 2, Nat.le_add_left 2 k, ?_, formAt_length_add⟩)
    rw [Nat.add_sub_cancel_left] at hnumber
    exact (number_le_of_taken htaken hnumber).trans hlimit

end NameRegistry

/-! ## Nested declarations -/

namespace Declaration

/-- A declaration has a property that refers to another declaration, which is called after the
declaration and the property, with a number up to a limit. -/
def Places (limit : Nat) (d e : Declaration) : Prop :=
  ∃ p ∈ d.properties, p.type.names = [e.name] ∧
    ∃ component, NameRegistry.StandsFor limit component p.name ∧
      e.name = d.name ++ nameSeparator ++ component

/-- Every declaration places those nested in it, and so do these. -/
def Linked (limit : Nat) (d : Declaration) : Prop :=
  ∀ outer ∈ d.flatten, ∀ e ∈ outer.nested, Places limit outer e

variable {limit : Nat}

theorem linked_iff {d : Declaration} :
    Linked limit d ↔ ∀ e ∈ d.nested, Places limit d e ∧ Linked limit e := by
  constructor
  · intro h e he
    refine ⟨h d (mem_flatten_iff.2 (.inl rfl)) e he, fun outer houter => ?_⟩
    exact h outer (mem_flatten_iff.2 (.inr ⟨e, he, houter⟩))
  · intro h outer houter
    rcases mem_flatten_iff.1 houter with rfl | ⟨e, he, houter⟩
    · exact fun e he => (h e he).1
    · exact (h e he).2 outer houter

/-- A linked declaration is called after a scope and one of some properties, which refers to it. -/
structure PlacedIn (limit : Nat) (e : Declaration) (scope : List String) (ps : List Property) :
    Prop where
  linked : Linked limit e
  placed : ∃ p ∈ ps, p.type.names = [e.name] ∧
    ∃ component, NameRegistry.StandsFor limit component p.name ∧ e.name = joinName scope component

theorem PlacedIn.cons {e : Declaration} {scope : List String} {ps : List Property}
    (h : PlacedIn limit e scope ps) (p : Property) : PlacedIn limit e scope (p :: ps) where
  linked := h.linked
  placed := by
    obtain ⟨q, hq, hplaced⟩ := h.placed
    exact ⟨q, List.mem_cons_of_mem _ hq, hplaced⟩

/-- Declarations that are placed in a scope make a linked declaration of that name. -/
theorem linked_build {scope : List String} (hscope : scope ≠ []) {description? : Option String}
    {shapes : List Shape} {table : NestedTable}
    (h : ∀ e ∈ table, PlacedIn limit e.declaration scope (shapes.flatMap Shape.properties)) :
    Linked limit (build (nameSeparator.intercalate scope) description? (.ofShapes shapes)
      table.declarations) := by
  rw [linked_iff]
  intro d hd
  obtain ⟨e, he, rfl⟩ := List.mem_map.1 hd
  obtain ⟨hlinked, p, hp, hnames, component, hcomponent, hname⟩ := h e he
  refine ⟨⟨p, ?_, hnames, component, hcomponent, ?_⟩, hlinked⟩
  · rw [properties_build]
    exact hp
  · rw [hname, joinName_cons hscope]
    rfl

end Declaration

/-! ## Runs -/

namespace EmissionContext

variable {x : EmissionContext}

/-- **Names along a run** have been claimed for the declarations that were added to the table. -/
theorem Emits.claims {s t : Session} {table table' : NestedTable} {ms : List MergedField}
    {ps : List Property} (h : x.Emits s table ms ps table' t) :
    ∃ added, table' = table ++ added ∧ s.Claims (declaredNames added.declarations) t := by
  induction h with
  | nil => exact ⟨[], (List.append_nil _).symm, .of_names_eq rfl⟩
  | narrowed _ _ ih => exact ih
  | shared _ _ _ _ _ _ ih => exact ih
  | @nested r s t table table' inner m ms ps set vs shapes _ _ _ _ _ _ _ ihinside ih =>
    obtain ⟨inner', hinner, hinside⟩ := ihinside
    obtain ⟨added, rfl, hrest⟩ := ih
    obtain rfl : inner = inner' := hinner
    refine ⟨_ :: added, List.append_assoc _ _ _, ?_⟩
    have hall := ((Session.Claims.claim s m.key).trans (hinside.congr rfl rfl)).trans
      (hrest.congr r.popScope_names.symm rfl)
    rw [NestedTable.declarations, List.map_cons, declaredNames_cons]
    exact hall
  | plain _ _ _ ih =>
    obtain ⟨added, rfl, hclaims⟩ := ih
    exact ⟨added, rfl, hclaims.congr (Session.noteScalar_names _ _).symm rfl⟩

/-- **Declarations along a run**: in a scope that is not empty, those that were added to the table
are placed in it, and numbers are at most that of the names that are taken in the end.  The scope is
restored. -/
theorem Emits.links {s t : Session} {table table' : NestedTable} {ms : List MergedField}
    {ps : List Property} (h : x.Emits s table ms ps table' t) (hscope : s.printer.scope ≠ [])
    {limit : Nat} (hlimit : t.names.size ≤ limit) :
    t.printer.scope = s.printer.scope ∧ ∃ added, table' = table ++ added ∧
      ∀ e ∈ added, Declaration.PlacedIn limit e.declaration s.printer.scope ps := by
  induction h with
  | nil => exact ⟨rfl, [], (List.append_nil _).symm, by simp⟩
  | narrowed _ _ ih =>
    obtain ⟨ht, added, rfl, hadded⟩ := ih hscope hlimit
    exact ⟨ht, added, rfl, fun e he => (hadded e he).cons _⟩
  | shared _ _ _ _ _ _ ih =>
    obtain ⟨ht, added, rfl, hadded⟩ := ih hscope hlimit
    exact ⟨ht, added, rfl, fun e he => (hadded e he).cons _⟩
  | @nested r s t table table' inner m ms ps set vs shapes _ _ _ _ _ hemits hrest ihinside ih =>
    have hne : (s.inside m.key).printer.scope ≠ [] := by simp [Session.inside]
    -- Names are only added, first inside the declaration and then behind it.
    obtain ⟨_, -, hclaimsInside⟩ := hemits.claims
    obtain ⟨_, -, hclaims⟩ := hrest.claims
    have hafter : r.names.size ≤ limit :=
      (NameRegistry.size_mono hclaims.kept).trans hlimit
    have hclaimed : (s.claimed m.key).names.size ≤ limit :=
      (NameRegistry.size_mono hclaimsInside.kept).trans hafter
    obtain ⟨hr, inner', hinner, hinside⟩ := ihinside hne hafter
    obtain rfl : inner = inner' := hinner
    have hpopped : r.popScope.2.printer.scope = s.printer.scope := by
      rw [Session.popScope_scope, hr, Session.inside, Session.pushScope_scope,
        List.dropLast_concat]
      rfl
    obtain ⟨ht, added, rfl, hadded⟩ := ih (hpopped ▸ hscope) hlimit
    rw [hpopped] at ht hadded
    refine ⟨ht, _ :: added, List.append_assoc _ _ _, List.forall_mem_cons.2 ⟨⟨?_, ?_⟩, ?_⟩⟩
    · exact Declaration.linked_build hne hinside
    · refine ⟨_, List.mem_cons_self, TypeExpr.names_mirror _ _, s.componentFor m.key, ?_, rfl⟩
      exact NameRegistry.standsFor_freeComponent _ _ _ hclaimed
    · exact fun e he => (hadded e he).cons _
  | plain _ _ _ ih =>
    rw [← Session.noteScalar_scope] at hscope
    obtain ⟨ht, added, rfl, hadded⟩ := ih hscope hlimit
    rw [Session.noteScalar_scope] at ht hadded
    exact ⟨ht, added, rfl, fun e he => (hadded e he).cons _⟩

/-- **The declaration of a selection set** under the name of the scope is linked, and the names
inside have been claimed for it. -/
theorem Builds.links {name : String} {description? : Option String} {set : SelectionSet}
    {s t : Session} {d : Declaration} (h : x.Builds name description? set s t d)
    (hscope : s.printer.scope ≠ []) (hname : name = nameSeparator.intercalate s.printer.scope)
    {limit : Nat} (hlimit : t.names.size ≤ limit) :
    s.Claims (declaredNames d.nested) t ∧ Declaration.Linked limit d := by
  subst hname
  cases h with
  | @intro vs shapes table _ _ hemits =>
    obtain ⟨table', htable, hclaims⟩ := hemits.claims
    obtain rfl : table = table' := htable
    obtain ⟨-, table', htable, hplaced⟩ := hemits.links hscope hlimit
    obtain rfl : table = table' := htable
    exact ⟨hclaims, Declaration.linked_build hscope hplaced⟩

end EmissionContext
end ResponseTypes
