import Mathlib.Data.List.Basic
import Mathlib.Data.List.Pairwise
import ResponseTypes.Proofs.FirstOccurrence

/-!
# The first of each class

An equivalence that can be decided sorts a list into classes, of which the first element that comes
up can stand for the others.

## What is here

* `firsts` — the first element of each class, with `firsts_concat` for a list that grows at its end.
* `eraseDups_flatMap_firsts` — replacing the first elements only, where the others bring no more.
* `pairwise_not_same_firsts`, `exists_firsts_of_mem` — there is one for each class.
* `head?_filter_of_mem_firsts`, `pairwise_idxOf_firsts` — it is the first, and they are in order.
-/

set_option autoImplicit false

namespace ResponseTypes

variable {α : Type} {same : α → α → Bool}

/-- The elements of a list that are not the same as an earlier one. -/
def firsts (same : α → α → Bool) : List α → List α
  | [] => []
  | a :: l => a :: (firsts same l).filter fun b => !same a b

theorem firsts_concat (same : α → α → Bool) (l : List α) (d : α) :
    firsts same (l ++ [d])
      = if ∃ a ∈ l, same a d = true then firsts same l else firsts same l ++ [d] := by
  induction l with
  | nil => simp [firsts]
  | cons a l ih =>
    rw [List.cons_append, firsts, ih, firsts]
    by_cases hl : ∃ b ∈ l, same b d = true
    · rw [if_pos hl, if_pos (hl.imp fun b hb => ⟨List.mem_cons_of_mem _ hb.1, hb.2⟩)]
    · rw [if_neg hl, List.filter_append]
      by_cases ha : same a d = true
      · rw [if_pos ⟨a, List.mem_cons_self, ha⟩, List.filter_cons_of_neg (by simp [ha]),
          List.filter_nil, List.append_nil]
      · have hcons : ¬ ∃ b ∈ a :: l, same b d = true := by
          rintro ⟨b, hb, hbd⟩
          rcases List.mem_cons.1 hb with rfl | hb
          · exact ha hbd
          · exact hl ⟨b, hb, hbd⟩
        rw [if_neg hcons, List.filter_cons_of_pos (by simp [ha]), List.filter_nil,
          List.cons_append]

theorem firsts_sublist (same : α → α → Bool) (l : List α) : (firsts same l).Sublist l := by
  induction l with
  | nil => exact .slnil
  | cons a l ih => exact (List.filter_sublist.trans ih).cons_cons a

/-- What the first elements stand for comes up first with them. -/
theorem eraseDups_flatMap_firsts {β : Type} [DecidableEq β] {g : α → List β} {l : List α}
    (h : ∀ a ∈ l, ∀ b ∈ l, same a b = true → g b ⊆ g a) :
    ((firsts same l).flatMap g).eraseDups = (l.flatMap g).eraseDups := by
  induction l using List.reverseRecOn with
  | nil => rfl
  | append_singleton l d ih =>
    have ih := ih fun a ha b hb =>
      h a (List.mem_append_left _ ha) b (List.mem_append_left _ hb)
    rw [firsts_concat, List.flatMap_append, List.flatMap_singleton]
    split
    · rename_i hex
      obtain ⟨a, ha, had⟩ := hex
      have hsubset := h a (List.mem_append_left _ ha) d (List.mem_append_right _ (by simp)) had
      rw [ih, eraseDups_append_of_subset fun b hb => List.mem_flatMap.2 ⟨a, ha, hsubset hb⟩]
    · rw [List.flatMap_append, List.flatMap_singleton, eraseDups_append_congr ih]

/-- No two of the first elements are the same. -/
theorem pairwise_not_same_firsts (same : α → α → Bool) (l : List α) :
    (firsts same l).Pairwise fun a b => same a b = false := by
  induction l with
  | nil => exact .nil
  | cons a l ih =>
    refine .cons ?_ (ih.sublist List.filter_sublist)
    intro b hb
    simpa using (List.mem_filter.1 hb).2

/-- Each element is the same as one of the first elements. -/
theorem exists_firsts_of_mem (h : Equivalence fun a b => same a b = true) {l : List α} {b : α}
    (hb : b ∈ l) : ∃ a ∈ firsts same l, same a b = true := by
  induction l with
  | nil => cases hb
  | cons c l ih =>
    by_cases hcb : same c b = true
    · exact ⟨c, List.mem_cons_self, hcb⟩
    · have hbl : b ∈ l := by
        rcases List.mem_cons.1 hb with rfl | hbl
        · exact absurd (h.refl b) hcb
        · exact hbl
      obtain ⟨a, ha, hab⟩ := ih hbl
      refine ⟨a, List.mem_cons_of_mem _ (List.mem_filter.2 ⟨ha, ?_⟩), hab⟩
      have hca : ¬ same c a = true := fun hca => hcb (h.trans hca hab)
      simpa using hca

/-- A first element is the first of its class. -/
theorem head?_filter_of_mem_firsts (h : Equivalence fun a b => same a b = true) {l : List α}
    {a : α} (ha : a ∈ firsts same l) : (l.filter (same a)).head? = some a := by
  induction l with
  | nil => cases ha
  | cons c l ih =>
    rcases List.mem_cons.1 ha with rfl | ha
    · rw [List.filter_cons_of_pos (h.refl a), List.head?_cons]
    · obtain ⟨ha, hca⟩ := List.mem_filter.1 ha
      have hac : ¬ same a c = true := fun hac => by simp [h.symm hac] at hca
      rw [List.filter_cons_of_neg hac]
      exact ih ha

/-- The first elements are in the order in which they come up. -/
theorem pairwise_idxOf_firsts [DecidableEq α] (h : Equivalence fun a b => same a b = true)
    (l : List α) : (firsts same l).Pairwise fun a b => l.idxOf a < l.idxOf b := by
  induction l with
  | nil => exact .nil
  | cons c l ih =>
    have hne : ∀ a ∈ (firsts same l).filter fun b => !same c b, c ≠ a := by
      rintro a ha rfl
      have hcc := (List.mem_filter.1 ha).2
      simp [h.refl c] at hcc
    refine .cons ?_ ?_
    · intro a ha
      rw [List.idxOf_cons_self, List.idxOf_cons_ne _ (hne a ha)]
      omega
    · refine (ih.sublist List.filter_sublist).imp_of_mem ?_
      intro a b ha hb hab
      rw [List.idxOf_cons_ne _ (hne a ha), List.idxOf_cons_ne _ (hne b hb)]
      omega

end ResponseTypes
