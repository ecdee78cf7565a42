/-!
# JSON values as they are read

A reader that works through a text from left to right and stops at the first problem can be split
in two: the text is first read into a *value*, in which a fault of the grammar stands where the
reading stopped, and a decoder then walks over the value in text order.  The first problem the walk
meets, be it a fault or a value of the wrong kind, is the first problem in the text.

Some problems of a number or a string only count for a decoder that looks at it: a number too large
for a double, or an escape that is half of a surrogate pair.  These are kept in the leaf, so that a
decoder that skips the value passes over them.

## What is here

* `Json.Fault` — what is wrong with a text as JSON.
* `Json.Number` — the numbers a value can hold.
* `Json.Found` — the head of a value, which is what a message says about it.
* `Json.Value`, `Json.Items`, `Json.Members` — values, the items of an array and the members of an
  object; a sequence ends with the way it was closed.
* `Json.Value.ofFields`, `Json.Value.ofList` — values free of faults.
-/

set_option autoImplicit false

namespace ResponseTypes
namespace Json

/-! ## Faults, numbers, heads -/

/-- What is wrong with a text as JSON: it ends too early, or it breaks the grammar. -/
inductive Fault where
  | endOfText
  | malformed
deriving DecidableEq, Repr

/-- A number: a natural number or a negative integer of 64 bits, or else a double. -/
inductive Number where
  | natural (n : Nat)
  | negative (n : Nat)
  | double (bits : UInt64)
deriving DecidableEq, Repr

/-- The head of a value. -/
inductive Found where
  | null
  | bool (b : Bool)
  | number (n : Number)
  | string (s : String)
  | sequence
  | map
deriving DecidableEq, Repr

/-! ## Leaves that may fail -/

/-- A leaf of a value: what it holds, or the fault a decoder meets that looks at it. -/
inductive Leaf (α : Type) where
  | holds (a : α)
  | fails (f : Fault)
deriving DecidableEq, Repr

/-! ## How a sequence ends -/

/-- How the items of an array end: with the closing bracket, or by a fault where a comma or the
bracket should stand. -/
inductive ItemsEnd where
  | closed
  | cut (f : Fault)
deriving DecidableEq, Repr

/-- How the members of an object end: with the closing brace; by a fault where a comma, the brace or
the first key should stand; or by a fault after a comma, where the next key should. -/
inductive MembersEnd where
  | closed
  | cut (f : Fault)
  | afterComma (f : Fault)
deriving DecidableEq, Repr

/-! ## Values -/

mutual

/-- A value as it was read.  A `word` is a literal that starts like `null`, `true` or `false` and
goes wrong; an `absent` value does not even start. -/
inductive Value where
  | null
  | bool (b : Bool)
  | number (n : Leaf Number)
  | string (s : Leaf String)
  | array (items : Items)
  | object (members : Members)
  | word (f : Fault)
  | absent (f : Fault)

/-- The items of an array in text order. -/
inductive Items where
  | done (e : ItemsEnd)
  | item (v : Value) (rest : Items)

/-- The members of an object in text order. -/
inductive Members where
  | done (e : MembersEnd)
  | member (key : Leaf String) (v : Value) (rest : Members)

end

deriving instance Repr for Value, Items, Members

instance : Inhabited Value := ⟨.null⟩

/-- The head of a value, or the fault in its place. -/
def Value.head : Value → Leaf Found
  | .null => .holds .null
  | .bool b => .holds (.bool b)
  | .number (.holds n) => .holds (.number n)
  | .number (.fails f) => .fails f
  | .string (.holds s) => .holds (.string s)
  | .string (.fails f) => .fails f
  | .array _ => .holds .sequence
  | .object _ => .holds .map
  | .word f => .fails f
  | .absent f => .fails f

/-! ## Values free of faults -/

/-- The items of a closed array. -/
def Items.ofList : List Value → Items
  | [] => .done .closed
  | v :: vs => .item v (.ofList vs)

/-- The members of a closed object. -/
def Members.ofList : List (String × Value) → Members
  | [] => .done .closed
  | (key, v) :: ms => .member (.holds key) v (.ofList ms)

namespace Value

/-- A string. -/
def text (s : String) : Value :=
  .string (.holds s)

/-- An array of values. -/
def ofList (vs : List Value) : Value :=
  .array (.ofList vs)

/-- An object with these members. -/
def ofFields (ms : List (String × Value)) : Value :=
  .object (.ofList ms)

/-- A string, or `null` for none. -/
def ofOption : Option String → Value
  | none => .null
  | some s => text s

end Value

end Json
end ResponseTypes
