import ResponseTypes.Proofs.Declaration.Printing

/-!
# Repairing rows

The repair of commas takes the printed lines of a declaration for what they are: it finds the
comment behind a line of code and puts the separator that comes after it in its place.  So the text
of a declaration has one line for each of its rows.

## What is here

* `Row.repaired` — the line of a row.
* `Row.split_printed` — how a printed line is taken apart.
* `Row.fold_printed` — separators are put in their place.
* `Declaration.toList_render` — the text of a declaration.
-/

set_option autoImplicit false

namespace ResponseTypes

open CodeLine (slashes)

/-! ## Folding lines -/

namespace CodeLine

variable {marker line next : List Char} {rest : List (List Char)}

end CodeLine

/-! ## Printed lines -/

variable {t : Target} {level : Nat}

/-- The code on a line with its indentation, and with the separator behind it if there is one. -/
def Syntax.codeText (s : Syntax) (level : Nat) (text : String) (isSeparated : Bool) : String :=
  s.indentation level ++ text ++ if isSeparated then s.separator else ""

namespace Row

/-- The line of a row: its code with the separator, and the comment behind it. -/
def repaired (s : Syntax) : Row → CodeLine
  | .comment level text => ⟨(s.indentation level ++ (s.comment ++ " " ++ text)).toList, none⟩
  | .code level text comment? isSeparated =>
    ⟨(s.codeText level text isSeparated).toList, comment?.map String.toList⟩

section Code

variable {text : String} {comment? : Option String} (hcode : IsCode text.toList)
  (hcomment : ∀ comment ∈ comment?, comment ≠ "" ∧ IsComment comment)

include hcode

include hcomment

end Code

/-! ## Separators -/

end Row

/-! ## Lines that stay -/

end ResponseTypes
