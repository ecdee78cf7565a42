import Mathlib.Algebra.Group.Nat.Defs
import Mathlib.Data.List.Dedup
import ResponseTypes.Proofs.Name.Claiming

/-!
# The order in which names are tried

The forms of a key make up an endless sequence: its singular form, the key itself if that is
different, and the singular form with the numbers from 2 on.  Claiming takes the first of them whose
name is free.  That there is one, and how soon it comes, does not depend on what the singular form
of a key is, nor on the scopes in which other names were claimed: all that counts is how many names
are taken.

## What is here

* `NameRegistry.formAt` — the sequence; `NameRegistry.numberAt?` — the number behind a form.
* `NameRegistry.exists_freeComponentFrom_eq` — all forms before the one that is found are taken.
* `NameRegistry.number_le_of_taken` — as many names are taken as there are numbers passed over.
* `NameRegistry.claims_first` — what is claimed, and what is taken afterwards.
-/

set_option autoImplicit false

namespace ResponseTypes
namespace NameRegistry

/-! ## The sequence of forms -/

/-- The forms of a key without a number: its singular form, and the key if it is another one. -/
def unnumbered (stem key : String) : List String :=
  if stem = key then [stem] else [stem, key]

/-- The number behind the form of a key that comes in this place, if it has one. -/
def numberAt? (stem key : String) (i : Nat) : Option Nat :=
  if i < (unnumbered stem key).length then none
  else some (i - (unnumbered stem key).length + 2)

/-- The form of a key that comes in this place: those without a number, and then the singular form
with the numbers from 2 on. -/
def formAt (stem key : String) (i : Nat) : String :=
  (unnumbered stem key)[i]?.getD (numbered stem (i - (unnumbered stem key).length + 2))

variable {stem key : String} {i n : Nat}

theorem formAt_zero : formAt stem key 0 = stem := by
  rw [formAt, unnumbered]
  split <;> rfl

theorem formAt_one (h : stem ≠ key) : formAt stem key 1 = key := by
  rw [formAt, unnumbered, if_neg h]
  rfl

theorem formAt_length_add : formAt stem key ((unnumbered stem key).length + n)
    = numbered stem (n + 2) := by
  rw [formAt, List.getElem?_eq_none (by omega), Option.getD_none, Nat.add_sub_cancel_left]

theorem eq_length_add_of_numberAt? (h : numberAt? stem key i = some n) :
    2 ≤ n ∧ i = (unnumbered stem key).length + (n - 2) := by
  rw [numberAt?] at h
  split at h
  · cases h
  · cases h
    omega

theorem length_unnumbered_pos (stem key : String) : 0 < (unnumbered stem key).length := by
  rw [unnumbered]
  split <;> simp

/-- The forms without a number are the singular form and the key. -/
theorem eq_or_eq_of_lt_length (h : i < (unnumbered stem key).length) :
    formAt stem key i = stem ∨ stem ≠ key ∧ formAt stem key i = key := by
  rcases Nat.eq_zero_or_pos i with rfl | hpos
  · exact .inl formAt_zero
  · by_cases hkey : stem = key
    · rw [unnumbered, if_pos hkey] at h
      simp only [List.length_singleton] at h
      omega
    · rw [unnumbered, if_neg hkey] at h
      simp only [List.length_cons, List.length_nil] at h
      obtain rfl : i = 1 := by omega
      exact .inr ⟨hkey, formAt_one hkey⟩

theorem numbered_ne_self (stem : String) (n : Nat) : numbered stem n ≠ stem := by
  intro h
  have hlength := congrArg String.length h
  have hpos : 0 < (toString n).length := by
    rw [Nat.toString_eq_ofList_toDigits, String.length_ofList]
    exact Nat.length_toDigits_pos
  rw [numbered, String.length_append] at hlength
  omega

/-! ## The search -/

/-- **The component that is found is a form of the key**, and those before it are taken. -/
theorem exists_freeComponentFrom_eq (r : NameRegistry) (scope : List String) (stem key : String) :
    ∃ i, r.freeComponentFrom scope stem key = formAt stem key i ∧
      ∀ j < i, joinName scope (formAt stem key j) ∈ r.taken := by
  have hmem : ∀ {component : String}, (!r.contains (joinName scope component)) ≠ true →
      joinName scope component ∈ r.taken := by
    intro component h
    simpa [contains] using h
  rw [freeComponentFrom]
  simp only
  split
  · exact ⟨0, formAt_zero.symm, fun j hj => absurd hj (Nat.not_lt_zero j)⟩
  · rename_i hstem
    split
    · rename_i hkey
      refine ⟨1, (formAt_one hkey.1).symm, fun j hj => ?_⟩
      obtain rfl : j = 0 := by omega
      rw [formAt_zero]
      exact hmem hstem
    · rename_i hkey
      -- From here on the forms are numbered, and the search goes through the numbers.
      let isTaken (m : Nat) : Bool := r.contains (joinName scope (numbered stem m))
      change ∃ i, numbered stem (firstFree isTaken r.taken.length 2) = formAt stem key i ∧ _
      have hle := le_firstFree isTaken r.taken.length 2
      generalize hm : firstFree isTaken r.taken.length 2 = m at hle ⊢
      refine ⟨(unnumbered stem key).length + (m - 2), ?_, fun j hj => ?_⟩
      · rw [formAt_length_add, Nat.sub_add_cancel hle]
      · rcases Nat.lt_or_ge j (unnumbered stem key).length with hlt | hge
        · rcases eq_or_eq_of_lt_length hlt with hform | ⟨hne, hform⟩
          · rw [hform]
            exact hmem hstem
          · rw [hform]
            exact hmem fun hfree => hkey ⟨hne, hfree⟩
        · obtain ⟨k, rfl⟩ := Nat.exists_eq_add_of_le hge
          have hlt : k + 2 < firstFree isTaken r.taken.length 2 := by omega
          have htaken : isTaken (k + 2) = true :=
            isTaken_of_lt_firstFree isTaken (Nat.le_add_left 2 k) hlt
          rw [formAt_length_add]
          exact List.contains_iff_mem.1 htaken

/-- **As many names are taken as there are forms passed over**: the singular form, and its numbered
forms before the number that is reached. -/
theorem number_le_of_taken {names scope : List String}
    (htaken : ∀ j < i, joinName scope (formAt stem key j) ∈ names)
    (hn : numberAt? stem key i = some n) : n ≤ names.dedup.length + 1 := by
  obtain ⟨htwo, rfl⟩ := eq_length_add_of_numberAt? hn
  let passed := stem :: (List.range' 2 (n - 2)).map (numbered stem)
  have hnodup : (passed.map (joinName scope)).Nodup := by
    refine List.Nodup.map (fun _ _ h => joinName_injective h) (List.nodup_cons.2 ⟨?_, ?_⟩)
    · intro hmem
      obtain ⟨m, -, hm⟩ := List.mem_map.1 hmem
      exact numbered_ne_self stem m hm
    · exact List.Nodup.map (fun _ _ h => numbered_injective h) List.nodup_range'
  have hsubset : passed.map (joinName scope) ⊆ names.dedup := by
    intro name hname
    obtain ⟨form, hform, rfl⟩ := List.mem_map.1 hname
    rw [List.mem_dedup]
    rcases List.mem_cons.1 hform with rfl | hform
    · have hpos := length_unnumbered_pos form key
      have hzero := htaken 0 (by omega)
      rwa [formAt_zero] at hzero
    · obtain ⟨m, hm, rfl⟩ := List.mem_map.1 hform
      rw [List.mem_range'_1] at hm
      have hplace := htaken ((unnumbered stem key).length + (m - 2)) (by omega)
      rwa [formAt_length_add, Nat.sub_add_cancel hm.1] at hplace
  have hlength := (hnodup.subperm hsubset).length_le
  simp only [passed, List.length_map, List.length_cons, List.length_range'] at hlength
  omega

/-- **Claiming takes the first form of a key whose name is free**, whatever string is taken for the
singular form: there is a first one, which is claimed; its name was free, and is now taken beside
the names that were; and a number behind it is at most by one greater than the number of names that
were taken.  As long as these are not more than the numbers of 32 bits, the number is one of them,
and so are all those that were tried before it. -/
theorem claims_first (r : NameRegistry) (hsize : r.taken.dedup.length + 1 < 2 ^ 31)
    (scope : List String) (key : String) :
    r.claim scope key = r.claimFrom scope (singular key) key ∧
      ∀ stem, ∃ i,
        r.claimFrom scope stem key
          = (formAt stem key i, ⟨joinName scope (formAt stem key i) :: r.taken⟩) ∧
        joinName scope (formAt stem key i) ∉ r.taken ∧
        (∀ j < i, joinName scope (formAt stem key j) ∈ r.taken) ∧
        ∀ n, numberAt? stem key i = some n → n ≤ r.taken.dedup.length + 1 ∧
          ∀ m ≤ n, (Int32.ofNat m).toInt = m := by
  refine ⟨rfl, fun stem => ?_⟩
  obtain ⟨i, hfound, htaken⟩ := r.exists_freeComponentFrom_eq scope stem key
  have hfree := r.joinName_freeComponentFrom_not_mem scope stem key
  rw [hfound] at hfree
  refine ⟨i, ?_, hfree, htaken, fun n hn => ?_⟩
  · have hcontains : r.contains (joinName scope (formAt stem key i)) = false := by
      rwa [contains, ← Bool.not_eq_true, List.contains_iff_mem]
    rw [claimFrom, hfound, insert, if_neg (by simp [hcontains])]
  · have hle := number_le_of_taken htaken hn
    exact ⟨hle, fun m hm => Int32.toInt_ofNat_of_lt (by omega)⟩

/-- A registry with two names. -/
def heroes : NameRegistry := ⟨["hero", "hero2"]⟩

/-- With two names taken the bound is reached: the number is 3. -/
theorem claims_first_heroes :
    heroes.taken.dedup.length + 1 < 2 ^ 31 ∧ ∃ i, numberAt? "hero" "hero" i = some 3 ∧
      heroes.claimFrom [] "hero" "hero"
        = (formAt "hero" "hero" i, ⟨joinName [] (formAt "hero" "hero" i) :: heroes.taken⟩) ∧
      joinName [] (formAt "hero" "hero" i) ∉ heroes.taken ∧
      (∀ j < i, joinName [] (formAt "hero" "hero" j) ∈ heroes.taken) ∧
      3 ≤ heroes.taken.dedup.length + 1 ∧ ∀ m ≤ 3, (Int32.ofNat m).toInt = m := by
  have hsize : heroes.taken.dedup.length + 1 < 2 ^ 31 := by decide
  obtain ⟨i, hfound, hfree, htaken, hnumber⟩ := (claims_first heroes hsize [] "hero").2 "hero"
  have hclaimed : (heroes.claimFrom [] "hero" "hero").1 = numbered "hero" 3 := by decide +kernel
  have hi : numberAt? "hero" "hero" i = some 3 := by
    rw [hfound] at hclaimed
    cases i with
    | zero => exact absurd hclaimed (by decide)
    | succ n =>
      have hform : formAt "hero" "hero" (n + 1) = numbered "hero" (n + 2) := by
        rw [Nat.add_comm n 1]
        exact formAt_length_add
      have hn := numbered_injective (hform.symm.trans hclaimed)
      obtain rfl : n = 1 := by omega
      rfl
  obtain ⟨hle, hfits⟩ := hnumber 3 hi
  exact ⟨hsize, i, hi, hfound, hfree, htaken, hle, hfits⟩

end NameRegistry
end ResponseTypes
