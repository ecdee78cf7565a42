/-!
# Target languages

Declarations are written for one of two languages.  All that differs between them — keywords,
brackets, and the notation of nullable types, arrays and references to fragments — is a `Syntax`.

## What is here

* `Syntax` with its notations.
* `Target`, `Target.syntaxOf` and `Target.ofName?`.
-/

set_option autoImplicit false

namespace ResponseTypes

/-! ## Notations -/

/-- How a nullable type is written: with a marker before it, or as a union with a keyword. -/
inductive NullableNotation where
  | marked (marker : String)
  | unionWith (keyword : String)
deriving DecidableEq, Repr

/-- How an array type is written: with its element between two texts, or with a marker behind it. -/
inductive ArrayNotation where
  | enclosed (opening closing : String)
  | marked (marker : String)
deriving DecidableEq, Repr

/-- How the declaration of a fragment joins an object type: as an entry of the body with a marker
before its name, or before the body with a separator behind its name. -/
inductive FragmentNotation where
  | entry (marker : String)
  | intersection (separator : String)
deriving DecidableEq, Repr

/-! ## Syntax -/

/-- The texts and notations of a target language. -/
structure Syntax where
  name : String
  /-- The lines every file starts with. -/
  header : List String
  /-- The words before the name of a declared type. -/
  declarator : String
  openBrace : String
  closeBrace : String
  /-- What ends a property. -/
  separator : String
  /-- What marks the name of a property that may be left out. -/
  optionalMark : String
  /-- What stands between the members of a union. -/
  unionSeparator : String
  /-- What starts a comment that ends with its line. -/
  comment : String
  /-- What ends a declaration. -/
  terminator : String
  nullable : NullableNotation
  array : ArrayNotation
  fragment : FragmentNotation
  stringType : String
  numberType : String
  booleanType : String
  /-- The type of values of unknown shape. -/
  anyType : String
  /-- The type without values. -/
  emptyType : String
  /-- One level of indentation. -/
  indent : String
deriving DecidableEq, Repr

/-- The second line of every file. -/
def generatedNotice : String :=
  "// This file was automatically generated and should not be edited."

namespace Syntax

/-- Flow type declarations. -/
def flow : Syntax where
  name := "flow"
  header := ["/* @flow */", generatedNotice]
  declarator := "export type"
  openBrace := "\x7b|"
  closeBrace := "|\x7d"
  separator := ","
  optionalMark := "?"
  unionSeparator := " | "
  comment := "//"
  terminator := ";"
  nullable := .marked "?"
  array := .enclosed "Array<" ">"
  fragment := .entry "..."
  stringType := "string"
  numberType := "number"
  booleanType := "boolean"
  anyType := "any"
  emptyType := "empty"
  indent := "  "

/-- TypeScript type declarations. -/
def typeScript : Syntax where
  name := "typescript"
  header := ["/* tslint:disable */", generatedNotice]
  declarator := "export type"
  openBrace := "\x7b"
  closeBrace := "\x7d"
  separator := ","
  optionalMark := "?"
  unionSeparator := " | "
  comment := "//"
  terminator := ";"
  nullable := .unionWith "null"
  array := .marked "[]"
  fragment := .intersection " & "
  stringType := "string"
  numberType := "number"
  booleanType := "boolean"
  anyType := "any"
  emptyType := "never"
  indent := "  "

end Syntax

/-! ## Targets -/

/-- A target language. -/
inductive Target where
  | flow
  | typeScript
deriving DecidableEq, Repr

namespace Target

/-- The syntax of a target. -/
def syntaxOf : Target → Syntax
  | .flow => Syntax.flow
  | .typeScript => Syntax.typeScript

/-- The name of a target. -/
def name (t : Target) : String :=
  t.syntaxOf.name

/-- The target of a name, in letters of either case.  Only ASCII letters have an ASCII letter of
these names as their lower case form. -/
def ofName? (s : String) : Option Target :=
  match String.ofList (s.toList.map Char.toLower) with
  | "flow" => some .flow
  | "typescript" => some .typeScript
  | "ts" => some .typeScript
  | _ => none

end Target
end ResponseTypes
