import ResponseTypes.Text.Blank

/-!
# Type references

A type reference is a type as a schema or a document writes it: a name, a list `[T]` of a reference,
or a non-null reference `T!`.  Blanks may stand around a reference, also around one inside a list.

## What is here

* `TypeRef` — references, and `TypeRef.display` — how they are written.
* `TypeRef.parse` — reads a reference.
* `TypeRef.Malformed` — why a text is no reference.
-/

set_option autoImplicit false

namespace ResponseTypes

/-- A type as it is written. -/
inductive TypeRef where
  | named (name : String)
  | list (element : TypeRef)
  | nonNull (inner : TypeRef)
deriving DecidableEq, Repr

namespace TypeRef

/-- The name at the heart of a reference. -/
def innermost : TypeRef → String
  | .named name => name
  | .list t => t.innermost
  | .nonNull t => t.innermost

/-- A reference marked by `!`. -/
def isNonNull : TypeRef → Bool
  | .nonNull _ => true
  | _ => false

/-- A reference as it is written, without blanks. -/
def display : TypeRef → String
  | .named name => name
  | .list t => "[" ++ t.display ++ "]"
  | .nonNull t => t.display ++ "!"

/-! ## Reading -/

/-- A text that is no type reference, and why. -/
structure Malformed where
  value : String
  reason : String
deriving DecidableEq, Repr

/-- Characters that a type name is made of. -/
def isNameChar (c : Char) : Bool :=
  c.isAlphanum || c = '_'

/-- A type name: not empty, of letters, digits and underscores, and not starting with a digit. -/
def isName : List Char → Bool
  | [] => false
  | c :: cs => !c.isDigit && (c :: cs).all isNameChar

/-- Splits the mark `!` off the end of a reference. -/
def splitMark (cs : List Char) : List Char × Bool :=
  if cs.getLast? = some '!' then (cs.dropLast, true) else (cs, false)

/-- Puts the mark back on a reference that has been read. -/
def mark (isMarked : Bool) (t : TypeRef) : TypeRef :=
  if isMarked then .nonNull t else t

theorem length_dropBlanks_le (cs : List Char) : (Text.dropBlanks cs).length ≤ cs.length :=
  (List.dropWhile_sublist _).length_le

theorem length_trimChars_le (cs : List Char) : (Text.trimChars cs).length ≤ cs.length := by
  have h := length_dropBlanks_le (Text.dropBlanks cs).reverse
  have h' := length_dropBlanks_le cs
  simp only [Text.trimChars, Text.trimEndChars, List.length_reverse] at *
  omega

theorem length_splitMark_le (cs : List Char) : (splitMark cs).1.length ≤ cs.length := by
  unfold splitMark
  split <;> simp

/-- Reads a type reference. -/
def parseChars (cs : List Char) : Except Malformed TypeRef :=
  let trimmed := Text.trimChars cs
  match _h : (splitMark trimmed).1 with
  | '[' :: rest =>
    if rest.getLast? = some ']' then
      match parseChars rest.dropLast with
      | .ok t => .ok (mark (splitMark trimmed).2 (.list t))
      | .error e => .error e
    else .error ⟨String.ofList trimmed, "unterminated list"⟩
  | body =>
    if isName body then .ok (mark (splitMark trimmed).2 (.named (String.ofList body)))
    else .error ⟨String.ofList trimmed, "expected a type name"⟩
termination_by cs.length
decreasing_by
  have h₁ := length_trimChars_le cs
  have h₂ := length_splitMark_le (Text.trimChars cs)
  rw [_h] at h₂
  simp only [List.length_cons, List.length_dropLast] at *
  omega

/-- Reads a type reference from a text. -/
def parse (s : String) : Except Malformed TypeRef :=
  parseChars s.toList

end TypeRef
end ResponseTypes
