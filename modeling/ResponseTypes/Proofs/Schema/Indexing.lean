import Mathlib.Data.List.Induction
import ResponseTypes.Proofs.Schema.Resolving

/-!
# The index mirrors the list

A schema is changed in two places.  A definition is entered at the end of the list and at the front
of the index, and rebuilding the index enters the whole list anew.  Both come to the same: the index
is that of the list, and so the last definition of a name is the one that is looked up.

A name that is defined stays defined.  So the built-in scalars, which every schema starts with, are
there for good, and defining them once more adds nothing.

## What is here

* `Index.of_concat` — the index of a list that grows; `Index.position?_of_bind` — what it finds.
* `Schema.IsIndexed` — the index is that of the list; `Schema.IsIndexed.get?_eq_find?` — lookup.
* `Schema.IsComplete` — every built-in scalar is defined.
* `Schema.Change` — ways to change a schema; `Schema.IsMade` — ways to make one.
* `Schema.mirrors_changes` — what holds of a schema after any changes.
-/

set_option autoImplicit false

namespace ResponseTypes

/-! ## The index of a list -/

namespace Index

/-- The index of a list with one more definition. -/
theorem of_concat (types : List TypeDefinition) (d : TypeDefinition) :
    of (types ++ [d]) = (d.name, types.length) :: of types := by
  rw [of, List.zipIdx_append, List.map_append, List.reverse_append, Nat.zero_add, of]
  rfl

/-- **The index of a list finds the last definition of a name.** -/
theorem position?_of_bind (types : List TypeDefinition) (name : String) :
    ((of types).position? name).bind (fun i => types[i]?)
      = types.reverse.find? fun d => d.name == name := by
  induction types using List.reverseRecOn with
  | nil => rfl
  | append_singleton types d ih =>
    rw [of_concat, position?, List.reverse_append, List.reverse_singleton,
      List.singleton_append, List.find?_cons]
    by_cases hname : d.name = name
    · rw [if_pos hname, beq_iff_eq.2 hname]
      exact List.getElem?_concat_length
    · rw [if_neg hname, beq_eq_false_iff_ne.2 hname, ← ih]
      -- The positions that were there before are those of the shorter list.
      cases hfound : (of types).position? name with
      | none => rfl
      | some i =>
        obtain ⟨d', hd', -⟩ := (fits_of types).getElem?_of_position? hfound
        obtain ⟨hlt, -⟩ := List.getElem?_eq_some_iff.1 hd'
        exact List.getElem?_append_left hlt

end Index

namespace Schema

variable {s : Schema}

/-! ## Indexed schemas -/

/-- The index is that of the definitions that are listed. -/
def IsIndexed (s : Schema) : Prop :=
  s.index = .of s.types

theorem isIndexed_reindex (s : Schema) : s.reindex.IsIndexed := rfl

theorem IsIndexed.define (h : s.IsIndexed) (d : TypeDefinition) : (s.define d).IsIndexed := by
  rw [IsIndexed] at h
  rw [IsIndexed, index_define, types_define, h, Index.of_concat]

theorem IsIndexed.defineBuiltins (h : s.IsIndexed) : s.defineBuiltins.IsIndexed :=
  defineBuiltins_induction (fun _ _ h => IsIndexed.define h _) h

/-- Rebuilding the index of an indexed schema changes nothing. -/
theorem IsIndexed.reindex_eq (h : s.IsIndexed) : s.reindex = s := by
  obtain ⟨query, mutation?, subscription?, types, index, fits⟩ := s
  obtain rfl : index = .of types := h
  rfl

/-- **Lookup finds the last definition of a name.** -/
theorem IsIndexed.get?_eq_find? (h : s.IsIndexed) (name : String) :
    s.get? name = s.types.reverse.find? fun d => d.name == name := by
  rw [get?, position?, h, Index.position?_of_bind]

theorem IsIndexed.hasType_iff (h : s.IsIndexed) {name : String} :
    s.hasType name = true ↔ ∃ d ∈ s.types, d.name = name := by
  rw [hasType_eq, h.get?_eq_find?, List.find?_isSome]
  simp

/-! ## Built-in scalars -/

/-- Every built-in scalar is defined. -/
def IsComplete (s : Schema) : Prop :=
  ∀ b : BuiltinScalar, s.hasType b.name = true

/-- A name that is defined stays defined, whatever definition is added. -/
theorem hasType_define {name : String} (h : s.hasType name = true) (d : TypeDefinition) :
    (s.define d).hasType name = true := by
  rw [hasType, position?, index_define, Index.position?]
  split
  · rfl
  · exact h

theorem hasType_define_self (s : Schema) (d : TypeDefinition) :
    (s.define d).hasType d.name = true := by
  rw [hasType, position?, index_define, Index.position?, if_pos rfl]
  rfl

theorem hasType_defineBuiltin (s : Schema) (b : BuiltinScalar) :
    (s.defineBuiltin b).hasType b.name = true := by
  rw [defineBuiltin]
  split
  · rename_i h
    exact h
  · exact hasType_define_self s (.scalar { name := b.name })

/-- **The built-in scalars are defined** once they have been gone through. -/
theorem isComplete_defineBuiltins (s : Schema) : s.defineBuiltins.IsComplete := by
  have hkeep : ∀ (bs : List BuiltinScalar) (s : Schema) {name : String},
      s.hasType name = true → (bs.foldl defineBuiltin s).hasType name = true := by
    intro bs
    induction bs with
    | nil => exact fun _ _ h => h
    | cons b bs ih =>
      intro s name h
      refine ih _ ?_
      rw [defineBuiltin]
      split
      · exact h
      · exact hasType_define h _
  have hall : ∀ (bs : List BuiltinScalar) (s : Schema), ∀ b ∈ bs,
      (bs.foldl defineBuiltin s).hasType b.name = true := by
    intro bs
    induction bs with
    | nil => exact fun _ _ h => absurd h List.not_mem_nil
    | cons b bs ih =>
      intro s b' hb'
      rcases List.mem_cons.1 hb' with rfl | hb'
      · exact hkeep bs _ (hasType_defineBuiltin s b')
      · exact ih _ b' hb'
  intro b
  exact hall BuiltinScalar.all s b (by cases b <;> decide)

/-- Where they are defined, nothing is added. -/
theorem IsComplete.defineBuiltins_eq (h : s.IsComplete) : s.defineBuiltins = s := by
  rw [defineBuiltins]
  generalize BuiltinScalar.all = bs
  induction bs with
  | nil => rfl
  | cons b bs ih => rw [List.foldl_cons, defineBuiltin, if_pos (h b), ih]

/-! ## Changes -/

/-- The ways to make a schema: of the built-in scalars, or by reading one. -/
inductive IsMade : Schema → Prop where
  | ofQueryType (name : String) : IsMade (ofQueryType name)
  | parse {text : String} {s : Schema} (h : parse text = .ok s) : IsMade s

/-- The ways to change the definitions of a schema and their index. -/
inductive Change where
  | define (d : TypeDefinition)
  | defineBuiltins
  | reindex

/-- A schema after a change. -/
def change (s : Schema) : Change → Schema
  | .define d => s.define d
  | .defineBuiltins => s.defineBuiltins
  | .reindex => s.reindex

/-- The index is that of the list, and the built-in scalars are defined. -/
structure IsSettled (s : Schema) : Prop where
  indexed : s.IsIndexed
  complete : s.IsComplete

/-- A schema is settled when it is made. -/
theorem IsMade.isSettled (h : s.IsMade) : s.IsSettled := by
  cases h with
  | ofQueryType name =>
    exact ⟨IsIndexed.defineBuiltins rfl, isComplete_defineBuiltins _⟩
  | parse h =>
    rw [Schema.parse] at h
    split at h
    · cases h
      exact ⟨(isIndexed_reindex _).defineBuiltins, isComplete_defineBuiltins _⟩
    · cases h

/-- **Every change keeps a schema settled.** -/
theorem IsSettled.change (h : s.IsSettled) (c : Change) : (s.change c).IsSettled := by
  cases c with
  | define d => exact ⟨h.indexed.define d, fun b => hasType_define (h.complete b) d⟩
  | defineBuiltins =>
    rw [Schema.change, h.complete.defineBuiltins_eq]
    exact h
  | reindex =>
    rw [Schema.change, h.indexed.reindex_eq]
    exact h

theorem IsSettled.changes (h : s.IsSettled) (changes : List Change) :
    (changes.foldl Schema.change s).IsSettled := by
  induction changes generalizing s with
  | nil => exact h
  | cons c changes ih => exact ih (h.change c)

/-- Lookup in a schema mirrors its list of definitions. -/
structure Mirrors (s : Schema) : Prop where
  /-- The last definition of a name is found. -/
  get? : ∀ name, s.get? name = s.types.reverse.find? fun d => d.name == name
  hasType : ∀ name, s.hasType name = true ↔ ∃ d ∈ s.types, d.name = name
  /-- No position leads behind the end of the list. -/
  position? : ∀ name i, s.position? name = some i → i < s.types.length
  builtin : ∀ b : BuiltinScalar, ∃ d ∈ s.types, d.name = b.name
  reindex : s.reindex = s
  defineBuiltins : s.defineBuiltins = s

theorem IsSettled.mirrors (h : s.IsSettled) : s.Mirrors where
  get? := h.indexed.get?_eq_find?
  hasType _ := h.indexed.hasType_iff
  position? name i hi := by
    obtain ⟨d, hd, -⟩ := getElem?_of_position? hi
    exact (List.getElem?_eq_some_iff.1 hd).1
  builtin b := h.indexed.hasType_iff.1 (h.complete b)
  reindex := h.indexed.reindex_eq
  defineBuiltins := h.complete.defineBuiltins_eq

/-- **Lookup mirrors the list of definitions**, along all changes of a schema after it was made. -/
theorem mirrors_changes (h : s.IsMade) (changes : List Change) :
    (changes.foldl change s).Mirrors :=
  (h.isSettled.changes changes).mirrors

/-- A second definition takes the place of a first one, and of a built-in scalar. -/
theorem mirrors_changes_twice :
    (ofQueryType "Query").IsMade ∧
      ([Change.define (.scalar { name := "Date" }), .defineBuiltins,
        .define (.enum { name := "Date" }), .define (.object { name := "ID" }), .reindex].foldl
          change (ofQueryType "Query")).Mirrors :=
  ⟨.ofQueryType "Query", mirrors_changes (.ofQueryType "Query") _⟩

end Schema
end ResponseTypes
