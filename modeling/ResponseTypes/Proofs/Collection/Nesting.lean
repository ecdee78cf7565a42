import ResponseTypes.Proofs.Collection.Yielding
import ResponseTypes.Proofs.Selection.Uses

/-!
# How far one can descend

From a list of selections one descends into the selections made on a field, and wherever the use of
a fragment is merged, into the fragment.  As long as no fragment comes back to itself through a
field, the number of fields passed on the way is bounded: a fragment that is entered again has been
left through no field, so one may as well have been in it for the last time.  What is left is a way
that enters each fragment once, and in each passes no more fields than nest there.

## What is here

* `Collector.Descends` — so many fields can be passed, without entering the fragments to be avoided.
* `Collector.Descends.avoid` — a fragment need not be entered twice.
* `Collector.Descends.le` — the bound.
-/

set_option autoImplicit false

namespace ResponseTypes
namespace Collector

/-- One can descend from a list of selections through so many fields, opening only fragments that
are not to be avoided. -/
inductive Descends (x : Collector) (avoided : List String) : List Selection → Nat → Prop where
  | stop {l : List Selection} : Descends x avoided l 0
  | inline {l : List Selection} {condition : String} {possible : List String}
    {set : SelectionSet} {n : Nat} (h : .inline condition possible set ∈ l)
    (hdescends : Descends x avoided set.selections n) : Descends x avoided l n
  | branch {l : List Selection} {f : Field} {set : SelectionSet} {n : Nat}
    (h : .branch f set ∈ l) (hdescends : Descends x avoided set.selections n) :
    Descends x avoided l (n + 1)
  | spread {l : List Selection} {name condition : String} {possible : List String}
    {f : Fragment} {n : Nat} (h : .spread name condition possible ∈ l) (hmerges : x.merges = true)
    (havoided : name ∉ avoided) (hget : x.fragments.get? name = some f)
    (hdescends : Descends x avoided f.set.selections n) : Descends x avoided l n

/-! ## Entering a fragment once -/

variable {x : Collector} {avoided : List String}

/-- If all fragments used in a list of selections are reached from one fragment, `k` fields further
inside, one can avoid the fragment on the way down, or descend from it by `k` fields more. -/
theorem Descends.avoid_or {name : String} {f : Fragment}
    (hget : x.fragments.get? name = some f)
    (hfinite : x.merges = true → ¬ x.fragments.NestsInItself name) {l : List Selection} {n : Nat}
    (h : x.Descends avoided l n) {k : Nat}
    (hreaches : ∀ j other, Selection.Uses l j other → x.fragments.Reaches name (k + j) other) :
    x.Descends (name :: avoided) l n ∨ x.Descends (name :: avoided) f.set.selections (k + n) := by
  induction h generalizing k with
  | stop => exact .inl .stop
  | inline hmem _ ih =>
    rcases ih fun j other huses => hreaches j other (.inline hmem huses) with hl | hf
    · exact .inl (.inline hmem hl)
    · exact .inr hf
  | @branch l f set n hmem _ ih =>
    have hinside : ∀ j other, Selection.Uses set.selections j other →
        x.fragments.Reaches name (k + 1 + j) other := by
      intro j other huses
      have hother := hreaches (j + 1) other (.branch hmem huses)
      rwa [Nat.add_comm j 1, ← Nat.add_assoc] at hother
    rcases ih hinside with hl | hf
    · exact .inl (.branch hmem hl)
    · rw [Nat.add_assoc, Nat.add_comm 1] at hf
      exact .inr hf
  | @spread l other _ _ g n hmem hmerges havoided hother _ ih =>
    have hname := hreaches 0 other (.spread hmem)
    rw [Nat.add_zero] at hname
    have hinside : ∀ j third, Selection.Uses g.set.selections j third →
        x.fragments.Reaches name (k + j) third :=
      fun j third huses => hname.trans (.uses hother huses)
    by_cases heq : other = name
    · -- The fragment is entered again; no field lies behind, so the way may start here.
      subst heq
      obtain rfl : g = f := Option.some.inj (hother.symm.trans hget)
      obtain rfl : k = 0 := by
        cases k with
        | zero => rfl
        | succ k => exact absurd ⟨k, hname⟩ (hfinite hmerges)
      rcases ih hinside with hl | hf
      · rw [Nat.zero_add]
        exact .inr hl
      · exact .inr hf
    · rcases ih hinside with hl | hf
      · exact .inl (.spread hmem hmerges (by simp [heq, havoided]) hother hl)
      · exact .inr hf

/-- **A fragment need not be entered twice.** -/
theorem Descends.avoid {name : String} {f : Fragment} (hget : x.fragments.get? name = some f)
    (hfinite : x.merges = true → ¬ x.fragments.NestsInItself name) {n : Nat}
    (h : x.Descends avoided f.set.selections n) :
    x.Descends (name :: avoided) f.set.selections n := by
  have hreaches : ∀ j other, Selection.Uses f.set.selections j other →
      x.fragments.Reaches name (0 + j) other := by
    intro j other huses
    rw [Nat.zero_add]
    exact .uses hget huses
  rcases h.avoid_or hget hfinite hreaches with hl | hf
  · exact hl
  · rwa [Nat.zero_add] at hf

/-! ## The bound -/

/-- How many fields nest in the fragments that are not avoided, taken together. -/
def depthOutside (avoided : List String) : List Fragment → Nat
  | [] => 0
  | f :: r => (if f.name ∈ avoided then 0 else f.set.depth) + depthOutside avoided r

theorem depthOutside_cons_le (name : String) (avoided : List String) (r : List Fragment) :
    depthOutside (name :: avoided) r ≤ depthOutside avoided r := by
  induction r with
  | nil => exact Nat.le_refl _
  | cons f r ih =>
    rw [depthOutside, depthOutside]
    by_cases hf : f.name ∈ avoided
    · rw [if_pos (List.mem_cons_of_mem _ hf), if_pos hf]
      omega
    · rw [if_neg hf]
      split <;> omega

theorem depth_add_depthOutside_cons_le {f : Fragment} (havoided : f.name ∉ avoided)
    {r : List Fragment} (hmem : f ∈ r) :
    f.set.depth + depthOutside (f.name :: avoided) r ≤ depthOutside avoided r := by
  induction r with
  | nil => cases hmem
  | cons g r ih =>
    rw [depthOutside, depthOutside]
    rcases List.mem_cons.1 hmem with rfl | hmem
    · have hle := depthOutside_cons_le f.name avoided r
      rw [if_pos List.mem_cons_self, if_neg havoided]
      omega
    · have hle := ih hmem
      by_cases hg : g.name ∈ avoided
      · rw [if_pos (List.mem_cons_of_mem _ hg), if_pos hg]
        omega
      · rw [if_neg hg]
        split <;> omega

/-- **The bound**: unless a fragment comes back to itself through a field, no more fields can be
passed than nest in the list, and in all fragments taken together. -/
theorem Descends.le (hfinite : x.merges = true → ∀ name, ¬ x.fragments.NestsInItself name)
    {l : List Selection} {n : Nat} (h : x.Descends avoided l n) :
    n ≤ Selection.listDepth l + depthOutside avoided x.fragments := by
  induction hk : x.unopened avoided using Nat.strongRecOn generalizing avoided l n with
  | ind k ihk =>
    subst hk
    induction h with
    | stop => exact Nat.zero_le _
    | inline hmem _ ih =>
      have := Selection.listDepth_inline_le hmem
      omega
    | branch hmem _ ih =>
      have := Selection.listDepth_branch_lt hmem
      omega
    | @spread l name _ _ f n hmem hmerges havoided hget hdescends _ =>
      have hlt := x.unopened_cons_lt avoided name f hget (by simpa using havoided)
      have hn := ihk _ hlt (hdescends.avoid hget fun _ => hfinite hmerges name) rfl
      have hname := FragmentRegistry.name_of_get? hget
      have hdepth := depth_add_depthOutside_cons_le (hname ▸ havoided)
        (FragmentRegistry.mem_of_get? hget)
      rw [SelectionSet.depth_eq, hname] at hdepth
      omega

/-! ## Yielding and descending -/

theorem Yields.descends {object? : Option String} {l : List Selection} {f : Field}
    {set? : Option SelectionSet} (h : x.Yields object? l f set?) {set : SelectionSet}
    (hset : set? = some set) {n : Nat} (hdescends : x.Descends [] set.selections n) :
    x.Descends [] l (n + 1) := by
  induction h with
  | leaf => cases hset
  | branch hmem =>
    cases hset
    exact .branch hmem hdescends
  | inline hmem _ _ ih => exact .inline hmem (ih hset)
  | spread hmem _ hmerges hget _ ih => exact .spread hmem hmerges (by simp) hget (ih hset)

/-- One descends from selections that were put together by descending from those of a part. -/
theorem Descends.of_flatMap {sets : List SelectionSet} (hsets : sets ≠ []) {n : Nat}
    (h : x.Descends avoided (sets.flatMap SelectionSet.selections) n) :
    ∃ set ∈ sets, x.Descends avoided set.selections n := by
  cases h with
  | stop =>
    obtain ⟨set, hset⟩ := List.exists_mem_of_ne_nil sets hsets
    exact ⟨set, hset, .stop⟩
  | inline hmem hdescends =>
    obtain ⟨set, hset, hmem⟩ := List.mem_flatMap.1 hmem
    exact ⟨set, hset, .inline hmem hdescends⟩
  | branch hmem hdescends =>
    obtain ⟨set, hset, hmem⟩ := List.mem_flatMap.1 hmem
    exact ⟨set, hset, .branch hmem hdescends⟩
  | spread hmem hmerges havoided hget hdescends =>
    obtain ⟨set, hset, hmem⟩ := List.mem_flatMap.1 hmem
    exact ⟨set, hset, .spread hmem hmerges havoided hget hdescends⟩

end Collector
end ResponseTypes
