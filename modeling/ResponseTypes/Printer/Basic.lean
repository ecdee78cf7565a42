import ResponseTypes.Printer.Commas
import ResponseTypes.Target

/-!
# Printing

A printer collects text.  It knows how deeply a new line is to be indented and whether anything has
been printed since the last group began, it keeps the scope in which nested types are named, and it
queues the parts of a file until they are joined.

## What is here

* `Printer` — the state, and `Printer.print`, `newline`, `onNewline`, `newlineIfNeeded` on it.
* `Printer.indented`, `Printer.block` — printing on a deeper level.
* `Printer.pushScope`, `Printer.popScope` — the naming scope.
* `Printer.take`, `enqueue`, `finishPart`, `flush` — parts of a file.
-/

set_option autoImplicit false

namespace ResponseTypes

/-- A part of a file: text that is kept as it is, or code whose commas are still to be repaired. -/
inductive Part where
  | verbatim (text : String)
  | code (text : String)
deriving DecidableEq, Repr

/-- The state of a printer. -/
structure Printer where
  target : Syntax
  /-- The text printed so far. -/
  output : String := ""
  /-- How many levels a new line is indented. -/
  level : Nat := 0
  /-- Nothing was printed since the group began. -/
  isGroupStart : Bool := true
  /-- The components of the name of the type that is being built, the outermost first. -/
  scope : List String := []
  queue : List Part := []
deriving DecidableEq, Repr

namespace Printer

/-! ## Printing -/

/-- Whether the next text starts a line. -/
def atLineStart (p : Printer) : Bool :=
  match p.output.toList.getLast? with
  | none => true
  | some c => c == '\n'

/-- The indentation of a new line. -/
def indentation (p : Printer) : String :=
  String.join (List.replicate p.level p.target.indent)

/-- Prints a text, indented if it starts a line.  An empty text changes nothing. -/
def print (p : Printer) (text : String) : Printer :=
  if text = "" then p
  else
    let lead := if p.atLineStart then p.indentation else ""
    { p with output := p.output ++ lead ++ text, isGroupStart := false }

/-- Ends the line, if anything has been printed. -/
def newline (p : Printer) : Printer :=
  if p.output = "" then p else { p with output := p.output ++ "\n" }

/-- Prints a text on a line of its own. -/
def onNewline (p : Printer) (text : String) : Printer :=
  p.newline.print text

/-- Ends the line unless the group is empty, and begins a new group. -/
def newlineIfNeeded (p : Printer) : Printer :=
  let p := if p.isGroupStart then p else p.newline
  { p with isGroupStart := true }

/-! ## Levels -/

/-- Goes one level deeper. -/
def deeper (p : Printer) : Printer :=
  { p with level := p.level + 1 }

/-- Goes back one level. -/
def shallower (p : Printer) : Printer :=
  { p with level := p.level - 1 }

/-- Prints something one level deeper. -/
def indented (p : Printer) (body : Printer → Printer) : Printer :=
  (body p.deeper).shallower

/-- Opens a block: the opening text, and a new group on the next level. -/
def openBlock (p : Printer) (opening : String) : Printer :=
  { p.print opening with isGroupStart := true }.deeper

/-- Closes a block: back to its level, and the closing text on a line of its own. -/
def closeBlock (p : Printer) (closing : String) : Printer :=
  p.shallower.onNewline closing

/-- Prints something between an opening and a closing text, one level deeper. -/
def block (p : Printer) (opening closing : String) (body : Printer → Printer) : Printer :=
  (body (p.openBlock opening)).closeBlock closing

/-! ## The naming scope -/

/-- Enters a component of the naming scope. -/
def pushScope (p : Printer) (component : String) : Printer :=
  { p with scope := p.scope ++ [component] }

/-- Leaves the innermost component of the naming scope. -/
def popScope (p : Printer) : Option String × Printer :=
  (p.scope.getLast?, { p with scope := p.scope.dropLast })

/-! ## Parts of a file -/

/-- Takes the text printed so far. -/
def take (p : Printer) : String × Printer :=
  (p.output, { p with output := "", isGroupStart := true })

/-- Queues a part. -/
def enqueue (p : Printer) (part : Part) : Printer :=
  { p with queue := p.queue ++ [part] }

/-- Queues the text printed so far, if there is any. -/
def finishPart (p : Printer) : Printer :=
  if p.output = "" then p
  else
    let (text, p) := p.take
    p.enqueue (.verbatim text)

/-- The text of a part. -/
def partText (s : Syntax) : Part → String
  | .verbatim text => text
  | .code text => repairCommas s.comment text

/-- What stands between two parts. -/
def partSeparator : String := "\n\n"

/-- Parts as a file: those with a text, separated by blank lines, and a last line break. -/
def joinParts (s : Syntax) (parts : List Part) : String :=
  match (parts.map (partText s)).filter fun text => text ≠ "" with
  | [] => ""
  | texts => String.intercalate partSeparator texts ++ "\n"

/-- Queues the text printed so far, and joins and empties the queue. -/
def flush (p : Printer) : String × Printer :=
  let p := p.finishPart
  (joinParts p.target p.queue, { p with queue := [] })

end Printer
end ResponseTypes
