import Mathlib.Data.List.Induction
import Mathlib.Data.List.Nodup

/-!
# First occurrences

`List.eraseDups` keeps the first of several equal elements.  Collecting goes through a list of
things that may come up again, in an order that is decided by where each comes up first; the lemmas
say how first occurrences behave when such a list grows at its end.  Where things are told apart by
their keys, the first one of a key is what is looked up.

## What is here

* `eraseDups_concat`, `nodup_eraseDups`, `eraseDups_flatMap_eraseDups`, `eraseDups_filter`.
* `fresh` — the first occurrences of what has not been seen before, with `fresh_append`.
* `find?_key_eq_some_iff` — the first one of a key, where there is no second.
-/

set_option autoImplicit false

namespace ResponseTypes

variable {α : Type} [DecidableEq α]

/-! ## Without repeats -/

theorem eraseDups_concat (l : List α) (a : α) :
    (l ++ [a]).eraseDups = if a ∈ l then l.eraseDups else l.eraseDups ++ [a] := by
  rw [List.eraseDups_append, List.cons_removeAll, List.nil_removeAll]
  by_cases h : a ∈ l
  · simp [h]
  · simp [h, List.eraseDups_cons]

theorem nodup_eraseDups (l : List α) : l.eraseDups.Nodup := by
  induction l using List.reverseRecOn with
  | nil => simp
  | append_singleton l a ih =>
    rw [eraseDups_concat]
    split
    · exact ih
    · rename_i h
      refine List.nodup_append.2 ⟨ih, List.nodup_singleton a, ?_⟩
      intro b hb c hc hbc
      rw [List.mem_singleton] at hc
      subst hc hbc
      exact h (List.mem_eraseDups.1 hb)

theorem head?_eraseDups (l : List α) : l.eraseDups.head? = l.head? := by
  cases l with
  | nil => rfl
  | cons a l => rw [List.eraseDups_cons, List.head?_cons, List.head?_cons]

/-- What is repeated at the end changes nothing. -/
theorem eraseDups_append_of_subset {l m : List α} (h : m ⊆ l) :
    (l ++ m).eraseDups = l.eraseDups := by
  have hnone : m.removeAll l = [] := by
    rw [List.removeAll, List.filter_eq_nil_iff]
    intro a ha
    simp [h ha]
  rw [List.eraseDups_append, hnone, List.eraseDups_nil, List.append_nil]

/-- What is at the end counts where it is not a repeat. -/
theorem eraseDups_append_congr {l l' : List α} (h : l.eraseDups = l'.eraseDups) (m : List α) :
    (l ++ m).eraseDups = (l' ++ m).eraseDups := by
  have hrest : m.removeAll l = m.removeAll l' := by
    refine List.filter_congr fun a _ => ?_
    have hmem : a ∈ l ↔ a ∈ l' := by rw [← List.mem_eraseDups, h, List.mem_eraseDups]
    simp [hmem]
  rw [List.eraseDups_append, List.eraseDups_append, h, hrest]

/-- First occurrences are found before as well as after each element is replaced by some. -/
theorem eraseDups_flatMap_eraseDups {β : Type} [DecidableEq β] (f : α → List β) (l : List α) :
    (l.eraseDups.flatMap f).eraseDups = (l.flatMap f).eraseDups := by
  induction l using List.reverseRecOn with
  | nil => rfl
  | append_singleton l a ih =>
    rw [List.flatMap_append, List.flatMap_singleton, eraseDups_concat]
    split
    · rename_i ha
      rw [ih, eraseDups_append_of_subset fun b hb => List.mem_flatMap.2 ⟨a, ha, hb⟩]
    · rw [List.flatMap_append, List.flatMap_singleton, eraseDups_append_congr ih]

/-- First occurrences are found before as well as after a map. -/
theorem eraseDups_filterMap_eraseDups {β : Type} [DecidableEq β] (g : α → Option β) (l : List α) :
    (l.eraseDups.filterMap g).eraseDups = (l.filterMap g).eraseDups := by
  rw [List.filterMap_eq_flatMap_toList, List.filterMap_eq_flatMap_toList]
  exact eraseDups_flatMap_eraseDups (fun a => (g a).toList) l

/-- First occurrences are found before as well as after a choice. -/
theorem eraseDups_filter (p : α → Bool) (l : List α) :
    (l.filter p).eraseDups = l.eraseDups.filter p := by
  induction l using List.reverseRecOn with
  | nil => rfl
  | append_singleton l a ih =>
    rw [List.filter_append, eraseDups_concat l a]
    by_cases hp : p a = true
    · rw [List.filter_cons_of_pos hp, List.filter_nil, eraseDups_concat, ih]
      have hmem : a ∈ l.filter p ↔ a ∈ l := by simp [hp]
      simp only [hmem]
      split
      · rfl
      · rw [List.filter_append, List.filter_cons_of_pos hp, List.filter_nil]
    · rw [List.filter_cons_of_neg hp, List.filter_nil, List.append_nil, ih]
      split
      · rfl
      · rw [List.filter_append, List.filter_cons_of_neg hp, List.filter_nil, List.append_nil]

/-! ## What has not been seen before -/

/-- The first occurrences of the elements that are not among those seen before. -/
def fresh (seen l : List α) : List α :=
  (l.removeAll seen).eraseDups

theorem fresh_nil_left (l : List α) : fresh [] l = l.eraseDups := by
  rw [fresh, List.removeAll_nil]

theorem fresh_nil (seen : List α) : fresh seen [] = [] := by
  rw [fresh, List.nil_removeAll]
  rfl

theorem mem_fresh {seen l : List α} {a : α} : a ∈ fresh seen l ↔ a ∈ l ∧ a ∉ seen := by
  simp [fresh, List.removeAll]

theorem removeAll_append (l s t : List α) :
    l.removeAll (s ++ t) = (l.removeAll s).removeAll t := by
  simp only [List.removeAll, List.filter_filter]
  refine List.filter_congr fun a _ => ?_
  by_cases hs : a ∈ s <;> by_cases ht : a ∈ t <;> simp [hs, ht]

/-- What is seen first makes what follows it less fresh. -/
theorem fresh_append (seen l m : List α) :
    fresh seen (l ++ m) = fresh seen l ++ fresh (seen ++ fresh seen l) m := by
  have hsplit : (l ++ m).removeAll seen = l.removeAll seen ++ m.removeAll seen := by
    simp [List.removeAll]
  have hseen : (m.removeAll seen).removeAll (l.removeAll seen)
      = m.removeAll (seen ++ fresh seen l) := by
    rw [removeAll_append]
    refine List.filter_congr fun a _ => ?_
    simp [fresh]
  rw [fresh, hsplit, List.eraseDups_append, hseen, fresh, fresh]

theorem fresh_cons (seen : List α) (a : α) (l : List α) :
    fresh seen (a :: l) = if a ∈ seen then fresh seen l else a :: fresh (seen ++ [a]) l := by
  have h := fresh_append seen [a] l
  rw [List.singleton_append] at h
  rw [h]
  by_cases ha : a ∈ seen
  · simp [fresh, List.cons_removeAll, ha]
  · simp [fresh, List.cons_removeAll, ha, List.eraseDups_cons]

/-- What has all been seen brings nothing fresh. -/
theorem fresh_eq_nil {seen l : List α} (h : ∀ a ∈ l, a ∈ seen) : fresh seen l = [] := by
  rw [List.eq_nil_iff_forall_not_mem]
  intro a ha
  rw [mem_fresh] at ha
  exact ha.2 (h a ha.1)

/-! ## Keys -/

/-- **The first one of a key is the only one**, if the keys are different. -/
theorem find?_key_eq_some_iff {β : Type} {l : List β} {key : β → String}
    (hnodup : (l.map key).Nodup) {name : String} {b : β} :
    l.find? (fun b => key b == name) = some b ↔ b ∈ l ∧ key b = name := by
  constructor
  · exact fun h => ⟨List.mem_of_find?_eq_some h, by simpa using List.find?_some h⟩
  · rintro ⟨hmem, rfl⟩
    cases hfind : l.find? fun b' => key b' == key b with
    | none => exact absurd (beq_self_eq_true _) (List.find?_eq_none.1 hfind b hmem)
    | some found =>
      have hkey : key found = key b := by simpa using List.find?_some hfind
      rw [List.inj_on_of_nodup_map hnodup (List.mem_of_find?_eq_some hfind) hmem hkey]

end ResponseTypes
