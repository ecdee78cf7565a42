/-!
# Counting

Several functions here end because a list of names still to be met gets shorter: `countP_lt_countP`
compares how many elements of one list satisfy two tests, the first of which is the stricter one.
Where nothing gets shorter, but nothing may come up again either, `numLists` says how many lists
there are to come up.
-/

set_option autoImplicit false

namespace ResponseTypes

/-- A test that is stricter, and fails where the other holds, counts fewer elements. -/
theorem countP_lt_countP {α : Type} {p q : α → Bool} {l : List α} {a : α}
    (hpq : ∀ x, p x = true → q x = true) (ha : a ∈ l) (hp : p a = false) (hq : q a = true) :
    l.countP p < l.countP q := by
  induction l with
  | nil => cases ha
  | cons x l ih =>
    have hle : l.countP p ≤ l.countP q := List.countP_mono_left fun y _ => hpq y
    rcases List.mem_cons.1 ha with rfl | hx
    · simp only [List.countP_cons, hp, hq]
      simp
      omega
    · have hlt := ih hx
      simp only [List.countP_cons]
      cases h₁ : p x
      · cases q x <;> simp <;> omega
      · simp [hpq x h₁]
        exact hlt

/-- How many lists of at most a given length can be made of so many letters. -/
def numLists (letters : Nat) : Nat → Nat
  | 0 => 1
  | length + 1 => 1 + letters * numLists letters length

theorem numLists_pos (letters length : Nat) : 0 < numLists letters length := by
  cases length with
  | zero => exact Nat.one_pos
  | succ length => exact Nat.lt_of_lt_of_le Nat.one_pos (Nat.le_add_right 1 _)

end ResponseTypes
