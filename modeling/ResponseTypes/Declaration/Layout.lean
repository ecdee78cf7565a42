import ResponseTypes.Declaration.Basic
import ResponseTypes.Printer.Basic

/-!
# How declarations are laid out

A declaration is printed as a type alias of its body, with its description in a comment before it.
Each property and each member of an enum has a line of its own; its description stands behind it if
it fits on one line, and before it otherwise.  The separator of a property goes on a line of its
own, after the comment, and is put in its place when commas are repaired.

## What is here

* `Printer.commentLines`, `leadingComment`, `trailingComment` — descriptions.
* `Printer.enumBody`, `Printer.shape`, `Printer.declaration` — declarations.
* `Declaration.print` — the text of a declaration before commas are repaired.
-/

set_option autoImplicit false

namespace ResponseTypes
namespace Printer

/-! ## Descriptions -/

/-- Prints the lines of a text as comments. -/
def commentLines (p : Printer) (text : String) : Printer :=
  (Text.lines (Text.trim text)).foldl
    (fun p line => p.onNewline (p.target.comment ++ " " ++ Text.trim line)) p

/-- Whether a trimmed text fits behind a line of code. -/
def isSingleLine (text : String) : Bool :=
  text ≠ "" && !text.toList.contains '\n'

/-- Prints a description before what it describes, if it does not fit behind it. -/
def leadingComment (p : Printer) (description? : Option String) : Printer :=
  match description?.map Text.trim with
  | none => p
  | some text => if isSingleLine text then p else p.commentLines text

/-- Prints a description behind what it describes, if it fits there. -/
def trailingComment (p : Printer) (description? : Option String) : Printer :=
  match description?.map Text.trim with
  | none => p
  | some text =>
    if isSingleLine text then p.print (" " ++ p.target.comment ++ " " ++ text) else p

/-! ## Enums -/

/-- Prints the members of an enum, the last one with the terminator. -/
def enumMembers (p : Printer) : List EnumMember → Printer
  | [] => p
  | m :: ms =>
    let p := (p.leadingComment m.description?).onNewline ("| \"" ++ m.value ++ "\"")
    let p := if ms.isEmpty then p.print p.target.terminator else p
    (p.trailingComment m.description?).enumMembers ms

/-- Prints an enum. -/
def enumBody (p : Printer) (name : String) (members : List EnumMember) : Printer :=
  let s := p.target
  if members.isEmpty then
    p.onNewline (s.declarator ++ " " ++ name ++ " = " ++ s.emptyType ++ s.terminator)
  else
    (p.onNewline (s.declarator ++ " " ++ name ++ " =")).indented fun p => p.enumMembers members

/-! ## Object types -/

/-- Prints a property and its separator. -/
def property (p : Printer) (x : Property) : Printer :=
  let s := p.target
  let p := p.leadingComment x.description?
  let mark := if x.isOptional then s.optionalMark else ""
  let p := p.onNewline (x.name ++ mark ++ ": " ++ x.type.render s)
  (p.trailingComment x.description?).onNewline s.separator

/-- Prints an entry of a body that refers to a fragment, and its separator. -/
def spreadEntry (p : Printer) (entry : String) : Printer :=
  (p.onNewline entry).onNewline p.target.separator

/-- Prints the body of an object type: entries that refer to fragments, and properties. -/
def objectBody (p : Printer) (entries : List String) (properties : List Property) : Printer :=
  let s := p.target
  if entries.isEmpty && properties.isEmpty then p.print (s.openBrace ++ s.closeBrace)
  else
    p.block s.openBrace s.closeBrace fun p =>
      properties.foldl property (entries.foldl spreadEntry p)

/-- Prints an object type. -/
def shape (p : Printer) (x : Shape) : Printer :=
  match p.target.fragment with
  | .entry marker => p.objectBody (x.spreads.map fun f => marker ++ f) x.properties
  | .intersection separator =>
    (x.spreads.foldl (fun p f => p.print (f ++ separator)) p).objectBody [] x.properties

/-- Prints the object types of a union behind the first one. -/
def furtherShapes (p : Printer) (xs : List Shape) : Printer :=
  xs.foldl (fun p x => (p.print p.target.unionSeparator).shape x) p

/-! ## Declarations -/

/-- Prints a declaration, without those inside. -/
def declaration (p : Printer) (d : Declaration) : Printer :=
  let s := p.target
  let p :=
    match d.description? with
    | none => p
    | some text => p.commentLines text
  let head := s.declarator ++ " " ++ d.name ++ " = "
  match d.body with
  | .enum members => p.enumBody d.name members
  | .object x => ((p.onNewline head).shape x).print s.terminator
  | .union [] => ((p.onNewline head).print s.emptyType).print s.terminator
  | .union (x :: xs) => (((p.onNewline head).shape x).furtherShapes xs).print s.terminator

end Printer

/-- The text of a declaration, without those inside, before its commas are repaired. -/
def Declaration.print (s : Syntax) (d : Declaration) : String :=
  (Printer.declaration { target := s } d).output

/-- The text of a declaration, without those inside. -/
def Declaration.render (s : Syntax) (d : Declaration) : String :=
  repairCommas s.comment (d.print s)

end ResponseTypes
