import Mathlib.Data.List.DropRight
import ResponseTypes.Text.Blank

/-!
# Trimmed texts

Blanks around a text are dropped, and nothing else is.

## What is here

* `Text.Trimmed` — a text without blanks around it; `Text.trimmed_trimChars`.
* `Text.Ends` — a text that ends with something else than a blank.
* `Text.dropBlanks_append`, `Text.trimEndChars_append` — blanks before and behind a text.
* `Text.solid` — what is not blank in a text; `Text.solid_trimChars`.
-/

set_option autoImplicit false

namespace ResponseTypes
namespace Text

variable {cs ds : List Char}

/-- No blanks stand around a text. -/
structure Trimmed (cs : List Char) : Prop where
  head : ∀ c ∈ cs.head?, isBlank c = false
  last : ∀ c ∈ cs.getLast?, isBlank c = false

/-- A text ends with something that is not blank. -/
def Ends (cs : List Char) : Prop :=
  ∃ c, cs.getLast? = some c ∧ isBlank c = false

/-! ## Before a text -/

theorem dropBlanks_append (h : ∀ c ∈ ds, isBlank c = true) :
    dropBlanks (ds ++ cs) = dropBlanks cs :=
  List.dropWhile_append_of_pos h

theorem dropBlanks_eq_self (h : ∀ c ∈ cs.head?, isBlank c = false) : dropBlanks cs = cs := by
  cases cs with
  | nil => rfl
  | cons c cs => simp [dropBlanks, h c rfl]

theorem dropBlanks_isSuffix (cs : List Char) : dropBlanks cs <:+ cs :=
  List.dropWhile_suffix _

theorem isBlank_head_dropBlanks (cs : List Char) :
    ∀ c ∈ (dropBlanks cs).head?, isBlank c = false := by
  intro c hc
  have hhead := List.head?_dropWhile_not isBlank cs
  rw [Option.mem_def, dropBlanks] at hc
  rwa [hc] at hhead

/-! ## Behind a text -/

theorem trimEndChars_append (h : ∀ c ∈ ds, isBlank c = true) :
    trimEndChars (cs ++ ds) = trimEndChars cs := by
  rw [trimEndChars, List.reverse_append, dropBlanks_append (by simpa using h)]
  rfl

/-- Blanks behind a text are trimmed with those around it. -/
theorem trimChars_append (h : ∀ c ∈ ds, isBlank c = true) :
    trimChars (cs ++ ds) = trimChars cs := by
  rw [trimChars, trimChars, dropBlanks, List.dropWhile_append]
  split
  · rename_i hempty
    rw [dropBlanks, List.isEmpty_iff.1 hempty, List.dropWhile_eq_nil_iff.2 h]
  · exact trimEndChars_append h

theorem trimEndChars_eq_self (h : ∀ c ∈ cs.getLast?, isBlank c = false) : trimEndChars cs = cs := by
  rw [trimEndChars, dropBlanks_eq_self (by simpa using h), List.reverse_reverse]

theorem trimEndChars_isPrefix (cs : List Char) : trimEndChars cs <+: cs :=
  List.rdropWhile_prefix isBlank cs

theorem isBlank_getLast_trimEndChars : ∀ c ∈ (trimEndChars cs).getLast?, isBlank c = false := by
  rw [trimEndChars]
  simpa using isBlank_head_dropBlanks cs.reverse

/-! ## Around a text -/

/-- **A trimmed text** has no blanks around it. -/
theorem trimmed_trimChars (cs : List Char) : Trimmed (trimChars cs) := by
  refine ⟨fun c hc => ?_, isBlank_getLast_trimEndChars⟩
  -- What is dropped behind a text does not change where it starts.
  obtain ⟨rest, hrest⟩ := trimEndChars_isPrefix (dropBlanks cs)
  refine isBlank_head_dropBlanks cs c ?_
  rw [Option.mem_def] at hc ⊢
  rw [← hrest, List.head?_append, ← trimChars, hc]
  rfl

theorem Trimmed.trimChars_eq (h : Trimmed cs) : trimChars cs = cs := by
  rw [trimChars, dropBlanks_eq_self h.head, trimEndChars_eq_self h.last]

/-- What is dropped around a text is blank. -/
theorem exists_eq_append_trimChars (cs : List Char) :
    ∃ before after, (∀ c ∈ before, isBlank c = true) ∧ (∀ c ∈ after, isBlank c = true) ∧
      cs = before ++ trimChars cs ++ after := by
  refine ⟨cs.takeWhile isBlank, (dropBlanks cs).rtakeWhile isBlank,
    fun _ => List.mem_takeWhile_imp, fun _ => List.mem_rtakeWhile_imp, ?_⟩
  have hbehind : trimChars cs ++ (dropBlanks cs).rtakeWhile isBlank = dropBlanks cs :=
    List.rdropWhile_append_rtakeWhile
  rw [List.append_assoc, hbehind, dropBlanks, List.takeWhile_append_dropWhile]

theorem mem_of_mem_trimChars {c : Char} (h : c ∈ trimChars cs) : c ∈ cs :=
  (dropBlanks_isSuffix cs).subset ((trimEndChars_isPrefix _).subset h)

@[simp] theorem trim_trim (s : String) : trim (trim s) = trim s := by
  simp only [trim, String.toList_ofList, (trimmed_trimChars _).trimChars_eq]

/-! ## Characters that are not blank -/

/-- The characters of a text that are not blank. -/
def solid (cs : List Char) : List Char :=
  cs.filter fun c => !isBlank c

@[simp] theorem solid_append (cs ds : List Char) : solid (cs ++ ds) = solid cs ++ solid ds :=
  List.filter_append cs ds

theorem solid_eq_nil_iff : solid cs = [] ↔ ∀ c ∈ cs, isBlank c = true := by
  simp [solid]

theorem Ends.append (h : Ends ds) (cs : List Char) : Ends (cs ++ ds) := by
  obtain ⟨c, hc, hblank⟩ := h
  exact ⟨c, by rw [List.getLast?_append, hc]; rfl, hblank⟩

theorem Trimmed.ends (h : Trimmed cs) (hne : cs ≠ []) : Ends cs :=
  ⟨_, List.getLast?_eq_some_getLast hne, h.last _ (List.getLast?_eq_some_getLast hne)⟩

/-- A line that ends with something is not blank, and nothing of a line break is at its end. -/
theorem Ends.solid (h : Ends cs) : cs.getLast? ≠ some '\r' ∧ ∃ c ∈ cs, isBlank c = false := by
  obtain ⟨c, hc, hblank⟩ := h
  refine ⟨?_, c, List.mem_of_getLast? hc, hblank⟩
  rw [hc]
  rintro ⟨⟩
  exact absurd hblank (by decide)

end Text
end ResponseTypes
