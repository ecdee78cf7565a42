import ResponseTypes.Target

/-!
# Type expressions

The types of properties, independent of the target language, and how each target writes them.

## What is here

* `TypeExpr` and `TypeExpr.literals`.
* `TypeExpr.render` — an expression in the notation of a target; `TypeExpr.isUnionIn` tells where it
  needs parentheses.
-/

set_option autoImplicit false

namespace ResponseTypes

/-- The type of a property. -/
inductive TypeExpr where
  | named (name : String)
  | literal (value : String)
  | nullable (inner : TypeExpr)
  | array (element : TypeExpr)
  | union (members : List TypeExpr)

deriving instance Repr for TypeExpr

namespace TypeExpr

/-- The type of the values that are one of some strings. -/
def literals (values : List String) : TypeExpr :=
  match values with
  | [v] => .literal v
  | vs => .union (vs.map .literal)

/-- Whether an expression is marked as nullable. -/
def isNullable : TypeExpr → Bool
  | .nullable _ => true
  | _ => false

/-- Whether a target writes an expression with a union separator that is not enclosed. -/
def isUnionIn (s : Syntax) : TypeExpr → Bool
  | .union members => 1 < members.length
  | .nullable _ =>
    match s.nullable with
    | .unionWith _ => true
    | .marked _ => false
  | _ => false

/-- A text in parentheses, if it needs them. -/
def parenthesised (needed : Bool) (text : String) : String :=
  if needed then "(" ++ text ++ ")" else text

mutual

/-- An expression as a target writes it. -/
def render (s : Syntax) : TypeExpr → String
  | .named name => name
  | .literal value => "\"" ++ value ++ "\""
  | .nullable t =>
    match s.nullable with
    | .marked marker => marker ++ parenthesised (t.isUnionIn s) (t.render s)
    | .unionWith keyword => t.render s ++ s.unionSeparator ++ keyword
  | .array t =>
    match s.array with
    | .enclosed opening closing => opening ++ t.render s ++ closing
    | .marked marker => parenthesised (t.isUnionIn s) (t.render s) ++ marker
  | .union members =>
    match members with
    | [] => s.emptyType
    | t :: ts => String.intercalate s.unionSeparator (t.render s :: renderAll s ts)

/-- Expressions as a target writes them. -/
def renderAll (s : Syntax) : List TypeExpr → List String
  | [] => []
  | t :: ts => t.render s :: renderAll s ts

end

end TypeExpr
end ResponseTypes
