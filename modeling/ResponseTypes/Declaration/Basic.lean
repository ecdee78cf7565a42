import ResponseTypes.Text.Blank
import ResponseTypes.TypeExpr.Basic

/-!
# Declarations

What is generated: declarations of types, independent of the target language.  A declaration holds
the declarations of the types nested in it.

## What is here

* `Property`, `Shape`, `EnumMember`, `Body` and `Declaration`.
* `Declaration.flatten`, `shallow`, `find?` — a declaration and those nested in it.
-/

set_option autoImplicit false

namespace ResponseTypes

/-- A property of an object type. -/
structure Property where
  name : String
  isOptional : Bool
  type : TypeExpr
  description? : Option String
deriving Repr

/-- An object type: the fragments it takes in by reference, and its properties. -/
structure Shape where
  spreads : List String := []
  properties : List Property := []
deriving Repr

namespace Shape

/-- Whether there is nothing in a shape. -/
def isEmpty (s : Shape) : Bool :=
  s.spreads.isEmpty && s.properties.isEmpty

/-- The property of a name. -/
def property? (s : Shape) (name : String) : Option Property :=
  s.properties.find? fun p => p.name == name

end Shape

/-- A member of a declared enum. -/
structure EnumMember where
  value : String
  description? : Option String
deriving DecidableEq, Repr

/-- What a declaration declares: strings, an object type, or a union of object types. -/
inductive Body where
  | enum (members : List EnumMember)
  | object (shape : Shape)
  | union (shapes : List Shape)
deriving Repr

/-- The body of some object types: a union unless it is one. -/
def Body.ofShapes : List Shape → Body
  | [shape] => .object shape
  | shapes => .union shapes

/-- The object types of a body. -/
def Body.shapes : Body → List Shape
  | .enum _ => []
  | .object shape => [shape]
  | .union shapes => shapes

/-- A declaration with the declarations of the types nested in it, in the order in which they were
built. -/
inductive Declaration where
  | mk (name : String) (description? : Option String) (body : Body) (nested : List Declaration)

deriving instance Repr for Declaration

namespace Declaration

/-- The declared name. -/
def name : Declaration → String
  | ⟨name, _, _, _⟩ => name

/-- The description, which is not blank if there is one. -/
def description? : Declaration → Option String
  | ⟨_, description?, _, _⟩ => description?

/-- What is declared. -/
def body : Declaration → Body
  | ⟨_, _, body, _⟩ => body

/-- The declarations directly inside. -/
def nested : Declaration → List Declaration
  | ⟨_, _, _, nested⟩ => nested

/-- A description, unless it is blank. -/
def describe (description? : Option String) : Option String :=
  description?.filter fun d => !Text.allBlank d.toList

/-- A declaration with a description, unless that is blank. -/
def build (name : String) (description? : Option String) (body : Body)
    (nested : List Declaration) : Declaration :=
  .mk name (describe description?) body nested

/-- The declaration without those inside. -/
def shallow (d : Declaration) : Declaration :=
  .mk d.name d.description? d.body []

mutual

/-- The declaration and all those inside, each before those inside it. -/
def flatten : Declaration → List Declaration
  | ⟨name, description?, body, nested⟩ =>
    .mk name description? body nested :: flattenAll nested

/-- Declarations and all those inside them. -/
def flattenAll : List Declaration → List Declaration
  | [] => []
  | d :: ds => d.flatten ++ flattenAll ds

end

/-- The first declaration of a name among this one and those inside. -/
def find? (d : Declaration) (name : String) : Option Declaration :=
  d.flatten.find? fun e => e.name == name

end Declaration

/-- The names of declarations and of all those inside them. -/
def declaredNames (ds : List Declaration) : List String :=
  (Declaration.flattenAll ds).map Declaration.name

end ResponseTypes
