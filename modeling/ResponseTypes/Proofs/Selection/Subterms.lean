import ResponseTypes.Proofs.Selection.Uses

/-!
# Selections inside selections

The selections inside a list are finite in number, and with a field or an inline fragment they hold
what is selected in it.  So whoever stays inside them never meets any others.  The uses of fragments
are not followed here.

## What is here

* `Selection.mem_listSubterms`, `SelectionSet.subterms_subset` — what is inside what.
* `SelectionSet.selections_subset_subterms` — what is selected directly is inside.
* `SelectionSet.depth_le_length_subterms` — no more fields nest than there are selections.
-/

set_option autoImplicit false

namespace ResponseTypes

namespace Selection

theorem mem_listSubterms {t : Selection} {l : List Selection} :
    t ∈ listSubterms l ↔ ∃ s ∈ l, t ∈ s.subterms := by
  induction l with
  | nil => simp [listSubterms]
  | cons s l ih => simp [listSubterms, ih]

theorem self_mem_subterms (s : Selection) : s ∈ s.subterms := by
  cases s <;> simp [subterms]

end Selection

theorem SelectionSet.selections_subset_subterms :
    (set : SelectionSet) → set.selections ⊆ set.subterms
  | .mk _ _ _ => fun s hs => Selection.mem_listSubterms.2 ⟨s, hs, s.self_mem_subterms⟩

mutual

/-- What is inside a selection that is inside another one is inside that one. -/
theorem Selection.subterms_subset {t : Selection} :
    (s : Selection) → t ∈ s.subterms → t.subterms ⊆ s.subterms
  | .leaf _, h => by
    obtain rfl := List.mem_singleton.1 h
    exact List.Subset.refl _
  | .branch f set, h => by
    rcases List.mem_cons.1 h with rfl | h
    · exact List.Subset.refl _
    · exact List.subset_cons_of_subset _ (SelectionSet.subterms_subset set h)
  | .inline c p set, h => by
    rcases List.mem_cons.1 h with rfl | h
    · exact List.Subset.refl _
    · exact List.subset_cons_of_subset _ (SelectionSet.subterms_subset set h)
  | .spread _ _ _, h => by
    obtain rfl := List.mem_singleton.1 h
    exact List.Subset.refl _

theorem SelectionSet.subterms_subset {t : Selection} :
    (set : SelectionSet) → t ∈ set.subterms → t.subterms ⊆ set.subterms
  | .mk _ _ l, h => Selection.listSubterms_subset l h

theorem Selection.listSubterms_subset {t : Selection} :
    (l : List Selection) → t ∈ Selection.listSubterms l → t.subterms ⊆ Selection.listSubterms l
  | [], h => absurd h List.not_mem_nil
  | s :: l, h => by
    rw [Selection.listSubterms] at h ⊢
    rcases List.mem_append.1 h with h | h
    · exact List.subset_append_of_subset_left _ (Selection.subterms_subset s h)
    · exact List.subset_append_of_subset_right _ (Selection.listSubterms_subset l h)

end

mutual

theorem Selection.depth_le_length_subterms : (s : Selection) → s.depth ≤ s.subterms.length
  | .leaf _ | .spread _ _ _ => Nat.zero_le _
  | .branch _ set => Nat.succ_le_succ (SelectionSet.depth_le_length_subterms set)
  | .inline _ _ set => Nat.le_succ_of_le (SelectionSet.depth_le_length_subterms set)

/-- **No more fields nest** in a selection set than there are selections. -/
theorem SelectionSet.depth_le_length_subterms : (set : SelectionSet) →
    set.depth ≤ set.subterms.length
  | .mk _ _ l => Selection.listDepth_le_length_listSubterms l

theorem Selection.listDepth_le_length_listSubterms : (l : List Selection) →
    Selection.listDepth l ≤ (Selection.listSubterms l).length
  | [] => Nat.le_refl 0
  | s :: l => by
    have hs := Selection.depth_le_length_subterms s
    have hl := Selection.listDepth_le_length_listSubterms l
    rw [Selection.listDepth, Selection.listSubterms, List.length_append]
    omega

end
end ResponseTypes
