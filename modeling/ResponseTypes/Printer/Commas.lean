import ResponseTypes.Text.Blank

/-!
# Repairing separators and comments

Code is printed with every separator on a line of its own, after the comment that belongs to the
line before it.  The repair puts a comma back behind the code it separates, drops blank lines, and
starts all comments behind code in one column.

## What is here

* `CodeLine` — a line of code, and the comment behind it.
* `CodeLine.split`, `CodeLine.fold` — taking lines apart and folding commas into them.
* `CodeLine.align` — writing lines with their comments in one column.
* `repairCommas` — all of it on a text.
-/

set_option autoImplicit false

namespace ResponseTypes

/-- A line of code and the text of the comment behind it.  A line that is a comment as a whole
counts as code without a comment. -/
structure CodeLine where
  code : List Char
  comment? : Option (List Char)
deriving DecidableEq, Repr

namespace CodeLine

/-! ## Taking lines apart -/

/-- The text before and after the first occurrence of a marker. -/
def splitAtMarker? (marker : List Char) : List Char → Option (List Char × List Char)
  | [] => if marker.isEmpty then some ([], []) else none
  | c :: cs =>
    if marker.isPrefixOf (c :: cs) then some ([], (c :: cs).drop marker.length)
    else (splitAtMarker? marker cs).map fun r => (c :: r.1, r.2)

/-- Whether the first thing on a line is the marker of a comment. -/
def isComment (marker line : List Char) : Bool :=
  marker.isPrefixOf (Text.dropBlanks line)

/-- Whether there is nothing on a line but a comma. -/
def isComma (line : List Char) : Bool :=
  Text.trimChars line == [',']

/-- A line split into code and comment. -/
def split (marker line : List Char) : CodeLine :=
  if isComment marker line then ⟨line, none⟩
  else
    match splitAtMarker? marker line with
    | some (before, after) => ⟨Text.trimEndChars before, some (Text.trimChars after)⟩
    | none => ⟨line, none⟩

/-- The line with a comma behind its code. -/
def addComma (x : CodeLine) : CodeLine :=
  { x with code := Text.trimEndChars x.code ++ [','] }

/-- Splits lines, folding a comma into the line before it unless that one is a comment. -/
def fold (marker : List Char) : List (List Char) → List CodeLine
  | [] => []
  | [line] => [split marker line]
  | line :: next :: rest =>
    if isComma next && !isComment marker line then
      (split marker line).addComma :: fold marker rest
    else split marker line :: fold marker (next :: rest)

/-! ## Writing lines -/

/-- The width of the widest code with a comment behind it. -/
def width (lines : List CodeLine) : Nat :=
  lines.foldl (fun n x => if x.comment?.isSome then max n x.code.length else n) 0

/-- A line with its comment one column behind the given width. -/
def render (marker : List Char) (width : Nat) (x : CodeLine) : List Char :=
  match x.comment? with
  | none => x.code
  | some comment =>
    let padded := x.code ++ List.replicate (width - x.code.length) ' '
    if comment.isEmpty then padded ++ ' ' :: marker
    else padded ++ ' ' :: marker ++ ' ' :: comment

/-- Lines with their comments in one column. -/
def align (marker : List Char) (lines : List CodeLine) : List (List Char) :=
  lines.map (render marker (width lines))

end CodeLine

/-- Repairs the commas and comments of a text.  `marker` starts a comment. -/
def repairCommas (marker text : String) : String :=
  let lines := (Text.linesOfChars text.toList).filter fun l => !Text.allBlank l
  let repaired := CodeLine.align marker.toList (CodeLine.fold marker.toList lines)
  String.intercalate "\n" (repaired.map String.ofList)

end ResponseTypes
