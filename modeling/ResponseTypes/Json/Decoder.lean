import ResponseTypes.Json.Problem
import ResponseTypes.Json.Reader

/-!
# Decoding JSON values

A decoder walks over a value in text order and stops at the first problem.  Records are written as
objects, or as arrays of their fields in declaration order; a *tagged* record also names its
variant, in the field `kind` or as the first item.

Everything inside a tagged record is read before any of its fields but the tag is looked at.  So
faults anywhere inside it come first, and it may not nest too deeply; elsewhere a value that belongs
to no field is skipped, at any depth and with less scrutiny.

## What is here

* `Json.Value.skip`, `Json.Value.sound` — walking over a value without and with looking at leaves.
* `Json.Decoder.string`, `flag`, `option`, `list` — decoders of plain values.
* `Json.Slot`, `Json.record` — records.
* `Json.tagOf`, `Json.tagged` — tagged records.
* `Json.decodeText` — a whole text.
-/

set_option autoImplicit false

namespace ResponseTypes
namespace Json

/-- A decoder of values. -/
abbrev Decoder (α : Type) := Value → Except Problem α

/-! ## Ends and leaves -/

/-- What a leaf holds, as far as a decoder is concerned. -/
def Leaf.decode {α : Type} : Leaf α → Except Problem α
  | .holds a => .ok a
  | .fails f => .error (.fault f)

/-- The end of the items of an array. -/
def ItemsEnd.decode : ItemsEnd → Except Problem Unit
  | .closed => .ok ()
  | .cut f => .error (.fault f)

/-- The end of the members of an object. -/
def MembersEnd.decode : MembersEnd → Except Problem Unit
  | .closed => .ok ()
  | .cut f => .error (.fault f)
  | .afterComma f => .error (.fault f)

/-- The problem of a value that is not what is expected: the fault at its head, if there is one. -/
def mismatch {α : Type} (v : Value) (expected : String) : Except Problem α :=
  match v.head with
  | .holds found => .error (.invalidType found expected)
  | .fails f => .error (.fault f)

/-! ## Walking over values -/

mutual

/-- Skips a value that belongs to no field: only faults of the text itself matter. -/
def Value.skip : Value → Except Problem Unit
  | .null => .ok ()
  | .bool _ => .ok ()
  | .number _ => .ok ()
  | .string _ => .ok ()
  | .array items => items.skip
  | .object members => members.skip
  | .word f => .error (.fault f)
  | .absent f => .error (.fault f)

/-- Skips the items of an array. -/
def Items.skip : Items → Except Problem Unit
  | .done e => e.decode
  | .item v rest => do
    v.skip
    rest.skip

/-- Skips the members of an object. -/
def Members.skip : Members → Except Problem Unit
  | .done e => e.decode
  | .member _ v rest => do
    v.skip
    rest.skip

end

mutual

/-- Reads a value completely, with a number of levels that arrays and objects may nest. -/
def Value.sound : Nat → Value → Except Problem Unit
  | _, .null => .ok ()
  | _, .bool _ => .ok ()
  | _, .number n => n.decode.map fun _ => ()
  | _, .string s => s.decode.map fun _ => ()
  | levels, .array items =>
    if levels = 0 then .error (.fault .malformed) else items.sound (levels - 1)
  | levels, .object members =>
    if levels = 0 then .error (.fault .malformed) else members.sound (levels - 1)
  | _, .word f => .error (.fault f)
  | _, .absent f => .error (.fault f)

/-- Reads the items of an array completely. -/
def Items.sound : Nat → Items → Except Problem Unit
  | _, .done e => e.decode
  | levels, .item v rest => do
    v.sound levels
    rest.sound levels

/-- Reads the members of an object completely. -/
def Members.sound : Nat → Members → Except Problem Unit
  | _, .done e => e.decode
  | levels, .member key v rest => do
    let _ ← key.decode
    v.sound levels
    rest.sound levels

end

/-! ## Plain values -/

/-- The items of an array, each decoded. -/
def Items.decode {α : Type} (d : Decoder α) : Items → Except Problem (List α)
  | .done e => e.decode.map fun _ => []
  | .item v rest => do
    let a ← d v
    let as ← rest.decode d
    return a :: as

/-- The number of items of an array. -/
def Items.length : Items → Nat
  | .done _ => 0
  | .item _ rest => rest.length + 1

namespace Decoder

/-- Decodes a string. -/
def string : Decoder String
  | .string s => s.decode
  | v => mismatch v "a string"

/-- Decodes a boolean. -/
def flag : Decoder Bool
  | .bool b => .ok b
  | v => mismatch v "a boolean"

/-- Decodes a value or `null`. -/
def option {α : Type} (d : Decoder α) : Decoder (Option α)
  | .null => .ok none
  | v => (d v).map some

/-- Decodes an array. -/
def list {α : Type} (d : Decoder α) : Decoder (List α)
  | .array items => items.decode d
  | v => mismatch v "a sequence"

end Decoder

/-! ## Records -/

/-- A field of a record: its name, whether it must be there, and how its value is stored. -/
structure Slot (σ : Type) where
  name : String
  isRequired : Bool
  store : Value → σ → Except Problem σ

/-- A field that must be there. -/
def Slot.required {σ α : Type} (name : String) (d : Decoder α) (set : α → σ → σ) : Slot σ :=
  ⟨name, true, fun v x => (d v).map fun a => set a x⟩

/-- A field that keeps its default when it is not there. -/
def Slot.optional {σ α : Type} (name : String) (d : Decoder α) (set : α → σ → σ) : Slot σ :=
  ⟨name, false, fun v x => (d v).map fun a => set a x⟩

/-- Stores the members of an object in a record; `seen` holds the fields stored before. -/
def Members.fill {σ : Type} (slots : List (Slot σ)) :
    List String → σ → Members → Except Problem (List String × σ)
  | seen, x, .done e => e.decode.map fun _ => (seen, x)
  | seen, x, .member key v rest => do
    let key ← key.decode
    match slots.find? fun s => s.name == key with
    | none =>
      v.skip
      rest.fill slots seen x
    | some slot =>
      if seen.contains key then .error (.duplicateField key)
      else
        let x ← slot.store v x
        rest.fill slots (key :: seen) x

/-- The number of something, in words. -/
def counted (n : Nat) (noun : String) : String :=
  toString n ++ " " ++ noun ++ (if n = 1 then "" else "s")

/-- Stores the items of an array in the fields of a record, in order.  `tooMany` is the problem of
items that are left over. -/
def Items.fill {σ : Type} (expected : String) (tooMany : Nat → Problem) :
    List (Slot σ) → Nat → σ → Items → Except Problem σ
  | [], _, x, .done e => e.decode.map fun _ => x
  | [], i, _, .item _ rest => .error (tooMany (i + rest.length + 1))
  | _ :: _, _, _, .done (.cut f) => .error (.fault f)
  | slot :: slots, i, x, .done .closed =>
    if slot.isRequired then .error (.invalidLength i expected)
    else (Items.done .closed).fill expected tooMany slots i x
  | slot :: slots, i, x, .item v rest => do
    let x ← slot.store v x
    rest.fill expected tooMany slots (i + 1) x

/-- Decodes a record of the given name from its fields, starting from a record of defaults.  A
record is `buffered` when it is part of a tagged one; it then counts the items that are too many. -/
def record {σ : Type} (name : String) (isBuffered : Bool) (slots : List (Slot σ)) (blank : σ) :
    Decoder σ
  | .object members => do
    let (seen, x) ← members.fill slots [] blank
    match slots.find? fun s => s.isRequired && !seen.contains s.name with
    | some s => .error (.missingField s.name)
    | none => .ok x
  | .array items =>
    let expected := "struct " ++ name ++ " with " ++ counted slots.length "element"
    let tooMany (n : Nat) : Problem :=
      if isBuffered then
        .invalidLength n (counted slots.length "element" ++ " in sequence")
      else .fault .malformed
    items.fill expected tooMany slots 0 blank
  | v => mismatch v ("struct " ++ name)

/-! ## Tagged records -/

/-- The name of the field that holds a tag. -/
def tagField : String := "kind"

/-- Decodes a tag to the index of its variant.  In a record that is part of another tagged one, the
index itself may stand for the name. -/
def tagOf (variants : List String) (isBuffered : Bool) : Decoder Nat
  | .string s => do
    let name ← s.decode
    match variants.idxOf? name with
    | some i => .ok i
    | none => .error (.unknownVariant name variants)
  | .number (.holds (.natural n)) =>
    if isBuffered then
      if n < variants.length then .ok n else .error (.invalidIndex n variants.length)
    else .error (.invalidType (.number (.natural n)) "variant identifier")
  | v => mismatch v "variant identifier"

/-- Finds the tag among the members of an object, checking every other value on the way. -/
def Members.tag (decodeTag : Decoder Nat) (check : Value → Except Problem Unit) :
    Option Nat → Members → Except Problem Nat
  | tag?, .done e => do
    e.decode
    match tag? with
    | some tag => .ok tag
    | none => .error (.missingField tagField)
  | tag?, .member key v rest => do
    let key ← key.decode
    if key = tagField then
      if tag?.isSome then .error (.duplicateField tagField)
      else
        let tag ← decodeTag v
        rest.tag decodeTag check (some tag)
    else
      check v
      rest.tag decodeTag check tag?

/-- Checks every item of an array. -/
def Items.check (check : Value → Except Problem Unit) : Items → Except Problem Unit
  | .done e => e.decode
  | .item v rest => do
    check v
    rest.check check

/-- Decodes the tag of a tagged record of the given name, checking all else in it.  What is left is
the record without its tag; as an object it keeps the tag, which no field of it is called. -/
def tagged (name : String) (decodeTag : Decoder Nat) (check : Value → Except Problem Unit) :
    Decoder (Nat × Value)
  | .object members => do
    let tag ← members.tag decodeTag check none
    return (tag, .object members)
  | .array (.item v rest) => do
    let tag ← decodeTag v
    rest.check check
    return (tag, .array rest)
  | .array (.done e) => do
    e.decode
    .error (.missingField tagField)
  | v => mismatch v ("internally tagged enum " ++ name)

/-- Decodes the tag of a tagged record that stands in the text by itself, where arrays and objects
may nest a number of levels, the record included. -/
def taggedRecord (name : String) (variants : List String) (levels : Nat) :
    Decoder (Nat × Value) :=
  tagged name (tagOf variants false) (Value.sound (levels - 1))

/-- The number of levels that arrays and objects may nest in what is decoded. -/
def maxLevels : Nat := 127

/-! ## Whole texts -/

/-- Decodes what was read: a problem of the value comes before what follows the value. -/
def Reading.decode {α : Type} (r : Reading) (d : Decoder α) : Except Problem α := do
  let a ← d r.value
  match r.trailing? with
  | none => return a
  | some f => .error (.fault f)

/-- Decodes a whole text. -/
def decodeText {α : Type} (d : Decoder α) (s : String) : Except Problem α :=
  (read s).decode d

end Json
end ResponseTypes
