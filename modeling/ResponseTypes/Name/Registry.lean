import ResponseTypes.Name.Singular

/-!
# Names of nested types

The type of a nested selection has no name of its own.  It is called after the way that leads to it:
the names of the enclosing types and the response key in the singular, joined by underscores.  A
name that is taken already gives way to the key as it is written, and then to numbered forms.

## What is here

* `joinName`, `compositeTypeName` — joined names.
* `NameRegistry` with `register` and `contains`.
* `NameRegistry.claim` — finds and registers a fresh name; `NameRegistry.claimFrom` — does so from
  any singular form of the key.
-/

set_option autoImplicit false

namespace ResponseTypes

/-! ## Joined names -/

/-- What stands between the components of a name. -/
def nameSeparator : String := "_"

/-- The name of a component in a scope. -/
def joinName (scope : List String) (component : String) : String :=
  String.intercalate nameSeparator (scope ++ [component])

/-- The name of the type of a nested selection, by its response key. -/
def compositeTypeName (scope : List String) (key : String) : String :=
  joinName scope (singular key)

/-! ## The registry -/

/-- The names that are taken. -/
structure NameRegistry where
  taken : List String := []
deriving DecidableEq, Repr

namespace NameRegistry

/-- Whether a name is taken. -/
def contains (r : NameRegistry) (name : String) : Bool :=
  r.taken.contains name

/-- Takes a name. -/
def insert (r : NameRegistry) (name : String) : NameRegistry :=
  if r.contains name then r else ⟨name :: r.taken⟩

/-- Takes a name, and tells whether it was free. -/
def register (r : NameRegistry) (name : String) : Bool × NameRegistry :=
  (!r.contains name, r.insert name)

/-- Takes several names. -/
def insertAll (r : NameRegistry) (names : List String) : NameRegistry :=
  names.foldl insert r

/-! ## Claiming -/

/-- A component with a number behind it.  Numbers are counted with 32 bits, the sign included; they
fit unless some 2 ^ 31 names are taken, for no number is reached before that many names are. -/
def numbered (stem : String) (n : Nat) : String :=
  stem ++ toString n

/-- The first number from `n` on that is free, if not all of the next `tries` numbers are taken.
Then the count never gets beyond `n + tries`. -/
def firstFree (isTaken : Nat → Bool) : Nat → Nat → Nat
  | 0, n => n
  | tries + 1, n => if isTaken n then firstFree isTaken tries (n + 1) else n

/-- Finds a component for a response key with a given singular form whose name in the scope is free:
the singular form, the key itself, or the singular form with the least number from 2 on.  As many
numbers as there are names taken cannot suffice to exhaust the free ones. -/
def freeComponentFrom (r : NameRegistry) (scope : List String) (stem key : String) : String :=
  let isTaken (component : String) : Bool := r.contains (joinName scope component)
  if !isTaken stem then stem
  else if stem ≠ key ∧ !isTaken key then key
  else numbered stem (firstFree (fun n => isTaken (numbered stem n)) r.taken.length 2)

/-- Finds a component for a response key whose name in the scope is free. -/
def freeComponent (r : NameRegistry) (scope : List String) (key : String) : String :=
  r.freeComponentFrom scope (singular key) key

/-- Claims a component for a response key with a given singular form in a scope: its name was free,
and is now taken. -/
def claimFrom (r : NameRegistry) (scope : List String) (stem key : String) :
    String × NameRegistry :=
  let component := r.freeComponentFrom scope stem key
  (component, r.insert (joinName scope component))

/-- Claims a component for a response key in a scope. -/
def claim (r : NameRegistry) (scope : List String) (key : String) : String × NameRegistry :=
  r.claimFrom scope (singular key) key

end NameRegistry
end ResponseTypes
