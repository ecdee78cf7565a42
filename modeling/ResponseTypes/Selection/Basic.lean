import ResponseTypes.ResolvedType

/-!
# Typed selections

The selections of a document after compilation: every field carries its type and description, and
every place where the set of possible object types may change carries that set.

## What is here

* `Field` and its response key.
* `Selection` and `SelectionSet`, which hold each other, with decidable equality.
* `SelectionSet.isPolymorphic`, `fields`, `append`, `depth`, `subterms`.
* `Fragment`, `FragmentRegistry`, `Operation`.
-/

set_option autoImplicit false

namespace ResponseTypes

/-- The name of the field that every composite type has: the name of the object type. -/
def typenameField : String := "__typename"

/-! ## Fields -/

/-- A selected field. -/
structure Field where
  name : String
  alias? : Option String := none
  type : ResolvedType
  description? : Option String := none
deriving DecidableEq, Repr

namespace Field

/-- The field that asks for the name of the object type. -/
def typename : Field where
  name := typenameField
  type := .nonNull (.named .scalar BuiltinScalar.string.name)

/-- The key under which a field stands in a response. -/
def key (f : Field) : String :=
  f.alias?.getD f.name

/-- Whether a field asks for the name of the object type. -/
def isTypename (f : Field) : Bool :=
  f.name == typenameField

end Field

/-! ## Selections -/

mutual

/-- A selection: a field without or with selections of its own, a fragment written in place, or the
use of a fragment by name.  The latter two apply to the object types listed as possible. -/
inductive Selection where
  | leaf (field : Field)
  | branch (field : Field) (set : SelectionSet)
  | inline (typeCondition : String) (possible : List String) (set : SelectionSet)
  | spread (fragment typeCondition : String) (possible : List String)

/-- The selections made on a value of a type, and the object types it can have. -/
structure SelectionSet where
  parentType : String
  possible : List String
  selections : List Selection

end

deriving instance Repr for Selection, SelectionSet

mutual

/-- Equality of selections can be decided. -/
def Selection.decEq : (a b : Selection) → Decidable (a = b)
  | .leaf f, .leaf g => decidable_of_iff (f = g) (by simp)
  | .branch f s, .branch g t =>
    match decEq f g, s.decEq t with
    | .isTrue h, .isTrue h' => .isTrue (by rw [h, h'])
    | .isFalse h, _ => .isFalse (by simp [h])
    | _, .isFalse h => .isFalse (by simp [h])
  | .inline c p s, .inline d q t =>
    match decEq (c, p) (d, q), s.decEq t with
    | .isTrue h, .isTrue h' => .isTrue (by simp_all)
    | .isFalse h, _ => .isFalse (by simp at h ⊢; intro h₁ h₂ _; exact h h₁ h₂)
    | _, .isFalse h => .isFalse (by simp [h])
  | .spread f c p, .spread g d q =>
    decidable_of_iff ((f, c, p) = (g, d, q)) (by simp)
  | .leaf _, .branch _ _ | .leaf _, .inline _ _ _ | .leaf _, .spread _ _ _ => .isFalse nofun
  | .branch _ _, .leaf _ | .branch _ _, .inline _ _ _ | .branch _ _, .spread _ _ _ =>
    .isFalse nofun
  | .inline _ _ _, .leaf _ | .inline _ _ _, .branch _ _ | .inline _ _ _, .spread _ _ _ =>
    .isFalse nofun
  | .spread _ _ _, .leaf _ | .spread _ _ _, .branch _ _ | .spread _ _ _, .inline _ _ _ =>
    .isFalse nofun

/-- Equality of selection sets can be decided. -/
def SelectionSet.decEq : (a b : SelectionSet) → Decidable (a = b)
  | ⟨n, p, s⟩, ⟨m, q, t⟩ =>
    match instDecidableEqProd (n, p) (m, q), Selection.decEqList s t with
    | .isTrue h, .isTrue h' => .isTrue (by simp_all)
    | .isFalse h, _ => .isFalse (by simp at h ⊢; intro h₁ h₂ _; exact h h₁ h₂)
    | _, .isFalse h => .isFalse (by simp [h])

/-- Equality of lists of selections can be decided. -/
def Selection.decEqList : (a b : List Selection) → Decidable (a = b)
  | [], [] => .isTrue rfl
  | [], _ :: _ => .isFalse nofun
  | _ :: _, [] => .isFalse nofun
  | a :: as, b :: bs =>
    match a.decEq b, Selection.decEqList as bs with
    | .isTrue h, .isTrue h' => .isTrue (by rw [h, h'])
    | .isFalse h, _ => .isFalse (by simp [h])
    | _, .isFalse h => .isFalse (by simp [h])

end

instance : DecidableEq Selection := Selection.decEq

instance : DecidableEq SelectionSet := SelectionSet.decEq

namespace Selection

/-- The field of a selection, if it is one. -/
def field? : Selection → Option Field
  | .leaf f => some f
  | .branch f _ => some f
  | _ => none

/-- The selection of a field with the selections made on its value, if there are any. -/
def ofField (f : Field) : Option SelectionSet → Selection
  | none => .leaf f
  | some set => .branch f set

end Selection

namespace SelectionSet

/-- The fields selected directly. -/
def fields (s : SelectionSet) : List Field :=
  s.selections.filterMap Selection.field?

/-- Whether the value may have another object type than the one it is declared with. -/
def isPolymorphic (s : SelectionSet) : Bool :=
  s.possible != [s.parentType]

/-- Whether there are fragments among the selections. -/
def hasConditions (s : SelectionSet) : Bool :=
  s.selections.any fun x => x.field?.isNone

/-- Whether a field of a response key is selected directly. -/
def hasKey (s : SelectionSet) (key : String) : Bool :=
  s.fields.any fun f => f.key == key

/-- The selections of one set followed by those of another. -/
def append (s t : SelectionSet) : SelectionSet :=
  { s with selections := s.selections ++ t.selections }

end SelectionSet

/-! ## Nesting -/

mutual

/-- How many fields nest in a selection. -/
def Selection.depth : Selection → Nat
  | .leaf _ => 0
  | .branch _ set => set.depth + 1
  | .inline _ _ set => set.depth
  | .spread _ _ _ => 0

/-- How many fields nest in a selection set. -/
def SelectionSet.depth : SelectionSet → Nat
  | ⟨_, _, selections⟩ => Selection.listDepth selections

/-- How many fields nest in a list of selections. -/
def Selection.listDepth : List Selection → Nat
  | [] => 0
  | x :: xs => max x.depth (Selection.listDepth xs)

end

mutual

/-- A selection and all that are inside it. -/
def Selection.subterms : Selection → List Selection
  | .leaf f => [.leaf f]
  | .branch f set => .branch f set :: set.subterms
  | .inline condition possible set => .inline condition possible set :: set.subterms
  | .spread fragment condition possible => [.spread fragment condition possible]

/-- The selections of a set and all that are inside them. -/
def SelectionSet.subterms : SelectionSet → List Selection
  | ⟨_, _, selections⟩ => Selection.listSubterms selections

/-- The selections of a list and all that are inside them. -/
def Selection.listSubterms : List Selection → List Selection
  | [] => []
  | x :: xs => x.subterms ++ Selection.listSubterms xs

end

/-! ## Fragments and operations -/

/-- A compiled fragment. -/
structure Fragment where
  name : String
  typeCondition : String
  set : SelectionSet
deriving DecidableEq, Repr

/-- The fragments of a document, at most one of each name, in the order in which the names were
first met. -/
abbrev FragmentRegistry := List Fragment

namespace FragmentRegistry

/-- The fragment of a name. -/
def get? (r : FragmentRegistry) (name : String) : Option Fragment :=
  r.find? fun f => f.name == name

/-- Registers a fragment; one that is registered under the same name is replaced in its place. -/
def insert (f : Fragment) : FragmentRegistry → FragmentRegistry
  | [] => [f]
  | g :: r => if g.name = f.name then f :: r else g :: insert f r

/-- The names of the registered fragments. -/
def names (r : FragmentRegistry) : List String :=
  r.map fun f => f.name

end FragmentRegistry

/-- A variable of an operation. -/
structure Variable where
  name : String
  type : ResolvedType
deriving DecidableEq, Repr

/-- A compiled operation. -/
structure Operation where
  name : String
  kind : OperationKind
  rootType : String
  vars : List Variable
  set : SelectionSet
deriving DecidableEq, Repr

namespace Operation

/-- The name of the type of the result of an operation. -/
def typeName (o : Operation) : String :=
  o.name ++ o.kind.typeSuffix

/-- The name of the type of the variables of an operation. -/
def variablesTypeName (o : Operation) : String :=
  o.typeName ++ "Variables"

end Operation
end ResponseTypes
