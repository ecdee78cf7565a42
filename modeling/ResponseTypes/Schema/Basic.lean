import ResponseTypes.Error
import ResponseTypes.Schema.Definition

/-!
# Schemas

A schema is a list of type definitions in the order in which they were written, together with the
names of the types that operations start from.  Definitions are looked up by name; if a name is
defined more than once, the last definition counts.

Lookup goes through an index of its own, which holds the positions of definitions in the list by
their names.  A definition that is *defined* enters both the list and the index; one that is
*appended* only enters the list, until the schema is reindexed.

## What is here

* `Index` — positions by name; `Index.Fits` — each leads to a definition of its name;
  `Index.position?` — the position of a name.
* `Schema`, with `Schema.define`, `append`, `reindex` and `defineBuiltins`.
* `Schema.position?`, `get?`, `hasType`, `field?`, `rootType?` — lookup.
* `Schema.possibleTypes` — the object types a value of a composite type can have.
* `Schema.resolve` — turns a type reference into a type.
-/

set_option autoImplicit false

namespace ResponseTypes

/-! ## The index -/

/-- Positions of definitions in a list, by name, the latest entry first. -/
abbrev Index := List (String × Nat)

namespace Index

variable {index : Index} {types : List TypeDefinition}

/-- Every entry leads to a definition of its name. -/
def Fits (index : Index) (types : List TypeDefinition) : Prop :=
  ∀ e ∈ index, ∃ d, types[e.2]? = some d ∧ d.name = e.1

theorem fits_nil (types : List TypeDefinition) : Fits [] types :=
  fun _ h => nomatch h

/-- An index still fits when the list grows. -/
theorem Fits.append (h : index.Fits types) (d : TypeDefinition) : index.Fits (types ++ [d]) := by
  intro e he
  obtain ⟨d', hd', hname⟩ := h e he
  obtain ⟨hlt, -⟩ := List.getElem?_eq_some_iff.1 hd'
  exact ⟨d', by rw [List.getElem?_append_left hlt, hd'], hname⟩

/-- A definition enters the list and the index. -/
theorem Fits.define (h : index.Fits types) (d : TypeDefinition) :
    Fits ((d.name, types.length) :: index) (types ++ [d]) :=
  List.forall_mem_cons.2 ⟨⟨d, List.getElem?_concat_length, rfl⟩, h.append d⟩

/-- The index of a list, in which the definitions are entered one after the other. -/
def of (types : List TypeDefinition) : Index :=
  (types.zipIdx.map fun d => (d.1.name, d.2)).reverse

theorem fits_of (types : List TypeDefinition) : (of types).Fits types := by
  intro e he
  obtain ⟨⟨d, i⟩, hd, rfl⟩ := List.mem_map.1 (List.mem_reverse.1 he)
  exact ⟨d, List.mem_zipIdx_iff_getElem?.1 hd, rfl⟩

/-- The position of a name.  The latest entry counts. -/
def position? : Index → String → Option Nat
  | [], _ => none
  | (key, i) :: index, name => if key = name then some i else position? index name

/-- A position that is found is that of a definition of the name. -/
theorem Fits.getElem?_of_position? (h : index.Fits types) {name : String} {i : Nat}
    (hi : index.position? name = some i) : ∃ d, types[i]? = some d ∧ d.name = name := by
  induction index with
  | nil => cases hi
  | cons e index ih =>
    obtain ⟨he, hmore⟩ := List.forall_mem_cons.1 h
    rw [position?] at hi
    split at hi
    · rename_i hkey
      cases hi
      exact hkey ▸ he
    · exact ih hmore hi

end Index

/-! ## Schemas -/

/-- A schema.  No entry of its index leads behind the end of the list, or to a definition of another
name. -/
structure Schema where
  queryType : String := "Query"
  mutationType? : Option String := none
  subscriptionType? : Option String := none
  types : List TypeDefinition := []
  index : Index := []
  fits : index.Fits types := by exact Index.fits_nil _
deriving DecidableEq, Repr

namespace Schema

/-- A schema without definitions. -/
def empty : Schema := {}

/-! ## Lookup -/

/-- The position at which the index finds a name. -/
def position? (s : Schema) (name : String) : Option Nat :=
  s.index.position? name

/-- The definition of a name. -/
def get? (s : Schema) (name : String) : Option TypeDefinition :=
  (s.position? name).bind fun i => s.types[i]?

/-- Whether a name is defined. -/
def hasType (s : Schema) (name : String) : Bool :=
  (s.position? name).isSome

theorem getElem?_of_position? {s : Schema} {name : String} {i : Nat}
    (h : s.position? name = some i) : ∃ d, s.types[i]? = some d ∧ d.name = name :=
  s.fits.getElem?_of_position? h

theorem get?_eq_some_iff {s : Schema} {name : String} {d : TypeDefinition} :
    s.get? name = some d ↔ ∃ i, s.position? name = some i ∧ s.types[i]? = some d := by
  rw [get?, Option.bind_eq_some_iff]

theorem name_of_get? {s : Schema} {name : String} {d : TypeDefinition}
    (h : s.get? name = some d) : d.name = name := by
  obtain ⟨i, hi, hd⟩ := get?_eq_some_iff.1 h
  obtain ⟨d', hd', hname⟩ := getElem?_of_position? hi
  rw [hd] at hd'
  cases hd'
  exact hname

/-- What lookup finds is listed. -/
theorem mem_types_of_get? {s : Schema} {name : String} {d : TypeDefinition}
    (h : s.get? name = some d) : d ∈ s.types := by
  obtain ⟨i, -, hd⟩ := get?_eq_some_iff.1 h
  exact List.mem_of_getElem? hd

/-- A name is defined if there is a definition of it. -/
theorem hasType_eq (s : Schema) (name : String) : s.hasType name = (s.get? name).isSome := by
  rw [hasType, get?]
  cases h : s.position? name with
  | none => rfl
  | some i =>
    obtain ⟨d, hd, -⟩ := getElem?_of_position? h
    rw [Option.bind_some, hd]
    rfl

/-- A field of an object or an interface. -/
def field? (s : Schema) (typeName field : String) : Option FieldDefinition := do
  let d ← s.get? typeName
  let fields ← d.fields?
  fields.find? fun f => f.name == field

/-- The type that operations of a kind start from. -/
def rootType? (s : Schema) : OperationKind → Option String
  | .query => some s.queryType
  | .mutation => s.mutationType?
  | .subscription => s.subscriptionType?

/-! ## Building -/

/-- Adds a definition to the list and to the index. -/
def define (s : Schema) (d : TypeDefinition) : Schema :=
  { s with
    types := s.types ++ [d]
    index := (d.name, s.types.length) :: s.index
    fits := s.fits.define d }

@[simp] theorem types_define (s : Schema) (d : TypeDefinition) :
    (s.define d).types = s.types ++ [d] := rfl

@[simp] theorem index_define (s : Schema) (d : TypeDefinition) :
    (s.define d).index = (d.name, s.types.length) :: s.index := rfl

/-- Adds a definition to the list alone. -/
def append (s : Schema) (d : TypeDefinition) : Schema :=
  { s with types := s.types ++ [d], fits := s.fits.append d }

/-- Rebuilds the index from the list. -/
def reindex (s : Schema) : Schema :=
  { s with index := .of s.types, fits := Index.fits_of s.types }

/-- Defines a built-in scalar unless its name is taken. -/
def defineBuiltin (s : Schema) (b : BuiltinScalar) : Schema :=
  if s.hasType b.name then s else s.define (.scalar { name := b.name })

/-- Defines the built-in scalars whose names are not taken. -/
def defineBuiltins (s : Schema) : Schema :=
  BuiltinScalar.all.foldl defineBuiltin s

/-- A schema of the built-in scalars whose queries start from the given type. -/
def ofQueryType (name : String) : Schema :=
  defineBuiltins { queryType := name }

/-! ## Possible types -/

/-- The object definitions in order. -/
def objects (s : Schema) : List ObjectDefinition :=
  s.types.filterMap TypeDefinition.object?

/-- The object types a value of a type can have: an object is itself, an interface is any object
that declares it, and a union is any of its members. -/
def possibleTypes (s : Schema) (name : String) : List String :=
  match s.get? name with
  | some (.object d) => [d.name]
  | some (.interface d) =>
    (s.objects.filter fun o => o.interfaces.contains d.name).map fun o => o.name
  | some (.union d) => d.members
  | _ => []

/-- Whether a name is an interface or a union. -/
def isAbstract (s : Schema) (name : String) : Bool :=
  (s.get? name).any fun d => d.kind.isAbstract

/-! ## Resolving -/

/-- Turns a type reference into a type.  The name must be defined, and `!` may not be put directly
on `!`; the outer of two such marks is noticed first. -/
def resolve (s : Schema) : TypeRef → Except SchemaError ResolvedType
  | .named name =>
    match s.get? name with
    | some d => .ok d.resolved
    | none => .error (.typeNotFound name)
  | .list t => (s.resolve t).map .list
  | .nonNull t =>
    if t.isNonNull then .error (.nestedNonNull (.nonNull t))
    else (s.resolve t).map .nonNull

end Schema
end ResponseTypes
