import ResponseTypes.Selection.Basic

/-!
# Where fragments are used

A fragment is used by name, beside the fields of a list of selections or inside the selections made
on one of them.  The number of fields around the use tells how far inside it is.  Fragments use
fragments, and so a fragment may come back to itself.  At one level that is harmless; through a
field it means that merging the uses need not come to an end.

## What is here

* `Selection.Uses` — where a list of selections uses a fragment; `Selection.uses_cons_iff` and the
  lemmas on single selections.
* `FragmentRegistry.Reaches` — what a fragment uses, directly or by other fragments, and
  `FragmentRegistry.NestsInItself`.
* `FragmentRegistry.Holds` — all fragments that are used are registered.
-/

set_option autoImplicit false

namespace ResponseTypes

/-- A list of selections uses a fragment so many fields further inside. -/
inductive Selection.Uses : List Selection → Nat → String → Prop where
  | spread {l : List Selection} {name condition : String} {possible : List String}
    (h : .spread name condition possible ∈ l) : Uses l 0 name
  | inline {l : List Selection} {condition : String} {possible : List String}
    {set : SelectionSet} {k : Nat} {name : String} (h : .inline condition possible set ∈ l)
    (huses : Uses set.selections k name) : Uses l k name
  | branch {l : List Selection} {f : Field} {set : SelectionSet} {k : Nat} {name : String}
    (h : .branch f set ∈ l) (huses : Uses set.selections k name) : Uses l (k + 1) name

namespace Selection

variable {l l' : List Selection} {k : Nat} {name : String}

theorem Uses.mono (h : Uses l k name) (hl : l ⊆ l') : Uses l' k name := by
  cases h with
  | spread h => exact .spread (hl h)
  | inline h huses => exact .inline (hl h) huses
  | branch h huses => exact .branch (hl h) huses

@[simp] theorem not_uses_nil : ¬ Uses [] k name := by
  rintro (hmem | hmem | hmem) <;> cases hmem

/-- A use is in one of the selections. -/
theorem Uses.exists_singleton (h : Uses l k name) : ∃ s ∈ l, Uses [s] k name := by
  cases h with
  | spread hmem => exact ⟨_, hmem, .spread (List.mem_singleton_self _)⟩
  | inline hmem huses => exact ⟨_, hmem, .inline (List.mem_singleton_self _) huses⟩
  | branch hmem huses => exact ⟨_, hmem, .branch (List.mem_singleton_self _) huses⟩

theorem uses_cons_iff {s : Selection} : Uses (s :: l) k name ↔ Uses [s] k name ∨ Uses l k name := by
  constructor
  · intro h
    obtain ⟨t, ht, huses⟩ := h.exists_singleton
    rcases List.mem_cons.1 ht with rfl | ht
    · exact .inl huses
    · exact .inr (huses.mono (List.cons_subset.2 ⟨ht, List.nil_subset _⟩))
  · rintro (h | h)
    · exact h.mono (List.cons_subset.2 ⟨List.mem_cons_self, List.nil_subset _⟩)
    · exact h.mono (List.subset_cons_self s l)

/-- With this, simplification comes to single selections. -/
@[simp] theorem uses_cons_cons_iff {s t : Selection} :
    Uses (s :: t :: l) k name ↔ Uses [s] k name ∨ Uses (t :: l) k name :=
  uses_cons_iff

@[simp] theorem not_uses_leaf {f : Field} : ¬ Uses [.leaf f] k name := by
  rintro (hmem | hmem | hmem) <;> cases List.mem_singleton.1 hmem

@[simp] theorem uses_branch_iff {f : Field} {set : SelectionSet} :
    Uses [.branch f set] k name ↔ ∃ j, k = j + 1 ∧ Uses set.selections j name := by
  constructor
  · rintro (hmem | hmem | ⟨hmem, huses⟩) <;> cases List.mem_singleton.1 hmem
    exact ⟨_, rfl, huses⟩
  · rintro ⟨j, rfl, huses⟩
    exact .branch (List.mem_singleton_self _) huses

@[simp] theorem uses_inline_iff {condition : String} {possible : List String}
    {set : SelectionSet} :
    Uses [.inline condition possible set] k name ↔ Uses set.selections k name := by
  constructor
  · rintro (hmem | ⟨hmem, huses⟩ | hmem) <;> cases List.mem_singleton.1 hmem
    exact huses
  · exact .inline (List.mem_singleton_self _)

@[simp] theorem uses_spread_iff {other condition : String} {possible : List String} :
    Uses [.spread other condition possible] k name ↔ k = 0 ∧ name = other := by
  constructor
  · rintro (hmem | hmem | hmem) <;> cases List.mem_singleton.1 hmem
    exact ⟨rfl, rfl⟩
  · rintro ⟨rfl, rfl⟩
    exact .spread (List.mem_singleton_self _)

end Selection

/-! ## From fragment to fragment -/

namespace FragmentRegistry

theorem mem_of_get? {r : FragmentRegistry} {name : String} {f : Fragment}
    (h : r.get? name = some f) : f ∈ r :=
  List.mem_of_find?_eq_some h

theorem name_of_get? {r : FragmentRegistry} {name : String} {f : Fragment}
    (h : r.get? name = some f) : f.name = name := by
  simpa using List.find?_some h

/-- A fragment comes to another one, by a use in its own selections or by way of others, so many
fields further inside. -/
inductive Reaches (r : FragmentRegistry) : String → Nat → String → Prop where
  | uses {name other : String} {f : Fragment} {k : Nat} (hget : r.get? name = some f)
    (huses : Selection.Uses f.set.selections k other) : Reaches r name k other
  | trans {a b c : String} {j k : Nat} (h : Reaches r a j b) (h' : Reaches r b k c) :
    Reaches r a (j + k) c

/-- A fragment comes back to itself through a field. -/
def NestsInItself (r : FragmentRegistry) (name : String) : Prop :=
  ∃ k, r.Reaches name (k + 1) name

/-- All fragments that are used in a list of selections are registered. -/
def Holds (r : FragmentRegistry) (l : List Selection) : Prop :=
  ∀ k name, Selection.Uses l k name → ∃ f, r.get? name = some f

end FragmentRegistry

/-! ## How far inside -/

theorem SelectionSet.depth_eq (set : SelectionSet) :
    set.depth = Selection.listDepth set.selections := by
  cases set
  rfl

namespace Selection

theorem depth_le_listDepth {s : Selection} {l : List Selection} (h : s ∈ l) :
    s.depth ≤ listDepth l := by
  induction l with
  | nil => cases h
  | cons t l ih =>
    rw [listDepth]
    rcases List.mem_cons.1 h with rfl | h
    · exact Nat.le_max_left _ _
    · exact Nat.le_trans (ih h) (Nat.le_max_right _ _)

theorem listDepth_inline_le {l : List Selection} {condition : String} {possible : List String}
    {set : SelectionSet} (h : .inline condition possible set ∈ l) :
    listDepth set.selections ≤ listDepth l := by
  rw [← SelectionSet.depth_eq]
  exact depth_le_listDepth h

theorem listDepth_branch_lt {l : List Selection} {f : Field} {set : SelectionSet}
    (h : .branch f set ∈ l) : listDepth set.selections < listDepth l := by
  rw [← SelectionSet.depth_eq]
  exact depth_le_listDepth h

end Selection

namespace FragmentRegistry

variable {r : FragmentRegistry}

/-- If every use lowers the rank of fragments by at least the fields around it, so does every way.
-/
theorem Reaches.rank_add_le {rank : String → Nat}
    (hrank : ∀ f ∈ r, ∀ k name, Selection.Uses f.set.selections k name →
      rank name + k ≤ rank f.name)
    {name other : String} {k : Nat} (h : r.Reaches name k other) :
    rank other + k ≤ rank name := by
  induction h with
  | uses hget huses =>
    have hle := hrank _ (mem_of_get? hget) _ _ huses
    rwa [name_of_get? hget] at hle
  | trans _ _ ih ih' => omega

/-- Where fragments can be ranked, none comes back to itself through a field. -/
theorem not_nestsInItself_of_rank (rank : String → Nat)
    (hrank : ∀ f ∈ r, ∀ k name, Selection.Uses f.set.selections k name →
      rank name + k ≤ rank f.name) (name : String) : ¬ r.NestsInItself name := by
  rintro ⟨k, h⟩
  have hle := h.rank_add_le hrank
  omega

end FragmentRegistry
end ResponseTypes
