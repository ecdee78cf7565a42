import ResponseTypes.Proofs.Results
import ResponseTypes.Selection.Collection

/-!
# Merging one field

`MergedField.add` puts a selected field to the fields of a response.  Whether it can depends on one
thing only, the type that the fields have under the key of the selected one; and if it can, either a
field is put at the end or one field absorbs more selections.

## What is here

* `MergedField.typeAt?` — the type under a key; `add_eq_ok_iff` and `add_eq_error_iff` say with it
  when a field can be added, and `typeAt?_add` what becomes of it.
* `MergedField.add_cases` — what adding a field does.
-/

set_option autoImplicit false

namespace ResponseTypes
namespace MergedField

/-! ## Absorbing selections -/

@[simp] theorem absorb_key (m : MergedField) (set? : Option SelectionSet) :
    (m.absorb set?).key = m.key := by
  cases h : m.set? <;> cases set? <;> simp [absorb, h]

@[simp] theorem absorb_name (m : MergedField) (set? : Option SelectionSet) :
    (m.absorb set?).name = m.name := by
  cases h : m.set? <;> cases set? <;> simp [absorb, h]

@[simp] theorem absorb_type (m : MergedField) (set? : Option SelectionSet) :
    (m.absorb set?).type = m.type := by
  cases h : m.set? <;> cases set? <;> simp [absorb, h]

@[simp] theorem absorb_description? (m : MergedField) (set? : Option SelectionSet) :
    (m.absorb set?).description? = m.description? := by
  cases h : m.set? <;> cases set? <;> simp [absorb, h]

@[simp] theorem absorb_literals? (m : MergedField) (set? : Option SelectionSet) :
    (m.absorb set?).literals? = m.literals? := by
  cases h : m.set? <;> cases set? <;> simp [absorb, h]

/-! ## The type under a key -/

/-- The type that the fields have under a key. -/
def typeAt? (ms : List MergedField) (key : String) : Option ResolvedType :=
  (ms.find? fun m => m.key == key).map MergedField.type

theorem typeAt?_cons (m : MergedField) (ms : List MergedField) (key : String) :
    typeAt? (m :: ms) key = if m.key = key then some m.type else typeAt? ms key := by
  by_cases h : m.key = key
  · rw [typeAt?, List.find?_cons_of_pos (by simpa using h), if_pos h, Option.map_some]
  · rw [typeAt?, List.find?_cons_of_neg (by simpa using h), if_neg h, typeAt?]

theorem exists_of_typeAt?_eq_some {ms : List MergedField} {key : String} {t : ResolvedType}
    (h : typeAt? ms key = some t) : ∃ m ∈ ms, m.key = key ∧ m.type = t := by
  obtain ⟨m, hm, ht⟩ := Option.map_eq_some_iff.1 h
  exact ⟨m, List.mem_of_find?_eq_some hm, by simpa using List.find?_some hm, ht⟩

/-- **When a field can be added**: nothing stands under its key, or something of its type does. -/
theorem add_eq_ok_iff (f : Field) (set? : Option SelectionSet) (ms : List MergedField) :
    (∃ ms', add f set? ms = .ok ms') ↔
      typeAt? ms f.key = none ∨ typeAt? ms f.key = some f.type := by
  induction ms with
  | nil => simp [add, typeAt?]
  | cons m ms ih =>
    rw [typeAt?_cons, add]
    by_cases hk : m.key = f.key
    · by_cases ht : m.type = f.type <;> simp [hk, ht]
    · rw [if_neg hk, if_neg hk, ← ih]
      cases add f set? ms <;> simp [Except.map]

/-- **When a field cannot be added**: something of another type stands under its key. -/
theorem add_eq_error_iff (f : Field) (set? : Option SelectionSet) (ms : List MergedField)
    (e : GenerationError) :
    add f set? ms = .error e ↔
      ∃ t, typeAt? ms f.key = some t ∧ t ≠ f.type ∧ e = .fieldMergeConflict f.key t f.type := by
  induction ms with
  | nil => simp [add, typeAt?]
  | cons m ms ih =>
    rw [typeAt?_cons, add]
    by_cases hk : m.key = f.key
    · by_cases ht : m.type = f.type
      · simp [hk, ht]
      · simp [hk, ht, eq_comm]
    · rw [if_neg hk, if_neg hk, ← ih]
      cases add f set? ms <;> simp [Except.map]

/-- Adding a field fixes the type under its key and changes no other. -/
theorem typeAt?_add {f : Field} {set? : Option SelectionSet} {ms ms' : List MergedField}
    (h : add f set? ms = .ok ms') (key : String) :
    typeAt? ms' key = if f.key = key then some f.type else typeAt? ms key := by
  induction ms generalizing ms' with
  | nil =>
    cases h
    rw [typeAt?_cons]
    rfl
  | cons m ms ih =>
    rw [add] at h
    split at h
    · rename_i hk
      split at h
      · rename_i ht
        cases h
        rw [typeAt?_cons, typeAt?_cons, absorb_key, absorb_type, hk, ht]
        split <;> rfl
      · cases h
    · rename_i hk
      obtain ⟨ns, hadd, rfl⟩ := map_eq_ok_iff.1 h
      rw [typeAt?_cons, typeAt?_cons, ih hadd]
      by_cases hm : m.key = key
      · rw [if_pos hm, if_pos hm, if_neg fun hf => hk (hm.trans hf.symm)]
      · rw [if_neg hm, if_neg hm]

/-! ## What becomes of the fields -/

/-- **What adding a field does**: the field is put at the end, under a key of its own, or the first
field of its key, which has its type, absorbs its selections. -/
theorem add_cases {f : Field} {set? : Option SelectionSet} {ms ms' : List MergedField}
    (h : add f set? ms = .ok ms') :
    ((∀ m ∈ ms, m.key ≠ f.key) ∧ ms' = ms ++ [ofField f set?]) ∨
      ∃ l m r, ms = l ++ m :: r ∧ (∀ n ∈ l, n.key ≠ f.key) ∧ m.key = f.key ∧ m.type = f.type ∧
        ms' = l ++ m.absorb set? :: r := by
  induction ms generalizing ms' with
  | nil =>
    cases h
    exact .inl ⟨by simp, rfl⟩
  | cons m ms ih =>
    rw [add] at h
    split at h
    · rename_i hk
      split at h
      · rename_i ht
        cases h
        exact .inr ⟨[], m, ms, rfl, by simp, hk, ht, rfl⟩
      · cases h
    · rename_i hk
      obtain ⟨ns, hadd, rfl⟩ := map_eq_ok_iff.1 h
      rcases ih hadd with ⟨hne, rfl⟩ | ⟨l, n, r, rfl, hl, hn, ht, rfl⟩
      · exact .inl ⟨by simpa [hk] using hne, rfl⟩
      · exact .inr ⟨m :: l, n, r, rfl, by simpa [hk] using hl, hn, ht, rfl⟩

end MergedField
end ResponseTypes
