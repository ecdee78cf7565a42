import Mathlib.Data.List.Nodup
import Mathlib.Data.List.Perm.Subperm
import Mathlib.Data.List.Range
import Std.Data.String.ToNat
import ResponseTypes.Name.Registry

/-!
# Claimed names are free

Claiming looks for a free name among the singular form of a key, the key itself and the numbered
forms of the singular.  It tries as many numbers as there are names taken, and then takes one more
number on trust.  The trust is well placed: the numbered forms differ, so the names taken cannot be
all of them.

## What is here

* `joinName_injective`, `numbered_injective` — names differ when their components do.
* `NameRegistry.isTaken_of_lt_firstFree` — the numbers before the one that is found are taken.
* `NameRegistry.joinName_freeComponentFrom_not_mem` — the component that is found has a free name.
* `NameRegistry.mem_taken_insert`, `NameRegistry.mem_taken_insertAll` — the names taken afterwards.
-/

set_option autoImplicit false

namespace ResponseTypes

/-! ## Different names -/

theorem joinName_nil (component : String) : joinName [] component = component := by
  rw [joinName, List.nil_append, String.intercalate_singleton]

theorem joinName_cons {scope : List String} (hscope : scope ≠ []) (component : String) :
    joinName scope component
      = nameSeparator.intercalate scope ++ nameSeparator ++ component := by
  rw [joinName, String.intercalate_append_of_ne_nil hscope (List.cons_ne_nil _ _),
    String.intercalate_singleton]

/-- In one scope, different components have different names. -/
theorem joinName_injective {scope : List String} {component other : String}
    (h : joinName scope component = joinName scope other) : component = other := by
  by_cases hscope : scope = []
  · rw [hscope, joinName_nil, joinName_nil] at h
    exact h
  · rw [joinName_cons hscope, joinName_cons hscope] at h
    exact (String.append_right_inj _).1 h

namespace NameRegistry

/-- Different numbers make different components. -/
theorem numbered_injective {stem : String} {m n : Nat} (h : numbered stem m = numbered stem n) :
    m = n := by
  rw [numbered, numbered, String.append_right_inj] at h
  exact Nat.repr_inj.1 h

/-! ## A free number -/

/-- The number that is found comes no earlier than the first one that is tried. -/
theorem le_firstFree (isTaken : Nat → Bool) (tries n : Nat) : n ≤ firstFree isTaken tries n := by
  induction tries generalizing n with
  | zero => exact Nat.le_refl n
  | succ tries ih =>
    rw [firstFree]
    split
    · exact Nat.le_of_succ_le (ih (n + 1))
    · exact Nat.le_refl n

/-- All numbers before the one that is found are taken. -/
theorem isTaken_of_lt_firstFree (isTaken : Nat → Bool) {tries n k : Nat} (hn : n ≤ k)
    (hk : k < firstFree isTaken tries n) : isTaken k = true := by
  induction tries generalizing n with
  | zero => exact absurd hk (Nat.not_lt.2 hn)
  | succ tries ih =>
    rw [firstFree] at hk
    split at hk
    · rename_i htaken
      rcases Nat.eq_or_lt_of_le hn with rfl | hlt
      · exact htaken
      · exact ih hlt hk
    · exact absurd hk (Nat.not_lt.2 hn)

/-- If the number that is found is taken, all numbers on the way to it are. -/
theorem isTaken_of_isTaken_firstFree (isTaken : Nat → Bool) {tries n : Nat}
    (h : isTaken (firstFree isTaken tries n) = true) :
    ∀ k, n ≤ k → k ≤ n + tries → isTaken k = true := by
  induction tries generalizing n with
  | zero =>
    intro k hn hk
    obtain rfl : k = n := by omega
    exact h
  | succ tries ih =>
    rw [firstFree] at h
    by_cases htaken : isTaken n = true
    · rw [if_pos htaken] at h
      intro k hn hk
      rcases Nat.eq_or_lt_of_le hn with rfl | hlt
      · exact htaken
      · exact ih h k hlt (by omega)
    · rw [if_neg htaken] at h
      exact absurd h htaken

/-- As many numbers as there are names, and one more, do not all give names from a list. -/
theorem exists_not_mem_of_injective {f : Nat → String}
    (hf : Function.Injective f) (names : List String) (n : Nat) :
    ∃ k, n ≤ k ∧ k ≤ n + names.length ∧ f k ∉ names := by
  by_contra hall
  simp only [not_exists, not_and, not_not] at hall
  have hnodup : ((List.range (names.length + 1)).map fun i => f (n + i)).Nodup := by
    refine List.Nodup.map ?_ List.nodup_range
    intro i j hij
    have := hf hij
    omega
  have hsubset : ((List.range (names.length + 1)).map fun i => f (n + i)) ⊆ names := by
    intro name hname
    obtain ⟨i, hi, rfl⟩ := List.mem_map.1 hname
    rw [List.mem_range] at hi
    exact hall (n + i) (by omega) (by omega)
  have hlength := (hnodup.subperm hsubset).length_le
  rw [List.length_map, List.length_range] at hlength
  omega

/-! ## Claiming -/

/-- The number that is found for a component is free. -/
theorem not_contains_firstFree (r : NameRegistry) (scope : List String) (stem : String) :
    r.contains (joinName scope (numbered stem
      (firstFree (fun n => r.contains (joinName scope (numbered stem n))) r.taken.length 2)))
        = false := by
  rw [Bool.eq_false_iff]
  intro htaken
  have hrun := isTaken_of_isTaken_firstFree
    (fun n => r.contains (joinName scope (numbered stem n))) htaken
  have hinjective : Function.Injective fun n => joinName scope (numbered stem n) :=
    fun _ _ h => numbered_injective (joinName_injective h)
  obtain ⟨k, hk, hle, hfree⟩ := exists_not_mem_of_injective hinjective r.taken 2
  exact hfree (List.contains_iff_mem.1 (hrun k hk hle))

/-- **The component that is found has a free name**, whatever the singular form of the key is. -/
theorem joinName_freeComponentFrom_not_mem (r : NameRegistry) (scope : List String)
    (stem key : String) : joinName scope (r.freeComponentFrom scope stem key) ∉ r.taken := by
  rw [← List.contains_iff_mem, ← contains, freeComponentFrom]
  simp only
  split
  · rename_i hstem
    simpa using hstem
  · split
    · rename_i hkey
      simpa using hkey.2
    · rw [not_contains_firstFree]
      exact Bool.false_ne_true

theorem joinName_freeComponent_not_mem (r : NameRegistry) (scope : List String) (key : String) :
    joinName scope (r.freeComponent scope key) ∉ r.taken :=
  r.joinName_freeComponentFrom_not_mem scope (singular key) key

theorem mem_taken_insert {r : NameRegistry} {name other : String} :
    other ∈ (r.insert name).taken ↔ other = name ∨ other ∈ r.taken := by
  rw [insert]
  split
  · rename_i h
    rw [contains, List.contains_iff_mem] at h
    constructor
    · exact .inr
    · rintro (rfl | hother)
      · exact h
      · exact hother
  · rw [List.mem_cons]

theorem mem_taken_insertAll {r : NameRegistry} {names : List String} {other : String} :
    other ∈ (r.insertAll names).taken ↔ other ∈ names ∨ other ∈ r.taken := by
  induction names generalizing r with
  | nil => simp [insertAll]
  | cons name names ih =>
    rw [insertAll, List.foldl_cons, ← insertAll, ih, mem_taken_insert, List.mem_cons, or_left_comm,
      or_assoc]

end NameRegistry
end ResponseTypes
