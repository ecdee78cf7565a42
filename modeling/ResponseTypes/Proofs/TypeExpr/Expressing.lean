import ResponseTypes.Proofs.Emission.Steps
import ResponseTypes.Proofs.Schema.Resolving

/-!
# From references to expressions

A reference says of each of its levels whether it is non-null, and so does the type that it resolves
to.  The expression of the type says the opposite, whether the level is nullable.  Between the two
nothing is lost: an expression has as many levels as its type, and a mark for null at those where
the type has no mark for non-null.

## What is here

* `ResolvedType.levels`, `TypeExpr.levels` — a type and its elements, and those of an expression.
* `TypeExpr.Expresses` — an expression has the wrappers of a type; `TypeExpr.expresses_mirror`.
* `Session.NotesAtMost` — what a session notes where a type is expressed.
* `Options.exists_typeExpr_iff`, `Emit.run_typeExpr_cases` — which types are expressed, and what
  becomes of the session.
* `wrappers_kept` — from references to expressions.
-/

set_option autoImplicit false

namespace ResponseTypes

/-! ## Levels -/

namespace ResolvedType

/-- How many lists there are in a type. -/
def lists : ResolvedType → Nat
  | .named _ _ => 0
  | .list t => t.lists + 1
  | .nonNull t => t.lists

/-- The levels of a type: the type itself, and the levels of its elements if it is a list.  A mark
for non-null belongs to the level that it stands on. -/
def levels : ResolvedType → List ResolvedType
  | .named kind name => [.named kind name]
  | .list t => .list t :: t.levels
  | .nonNull t => .nonNull t :: t.levels.tail

end ResolvedType

namespace TypeExpr

/-- How many arrays there are in an expression, one inside the other. -/
def arrays : TypeExpr → Nat
  | .array e => e.arrays + 1
  | .nullable e => e.arrays
  | _ => 0

/-- The levels of an expression: the expression itself, and the levels of its elements if it is an
array.  A mark for null belongs to the level that it stands on. -/
def levels : TypeExpr → List TypeExpr
  | .array e => .array e :: e.levels
  | .nullable e => .nullable e :: e.levels.tail
  | e => [e]

/-- No mark for null stands directly on another one. -/
def WellMarked : TypeExpr → Prop
  | .nullable e => e.isNullable = false ∧ e.WellMarked
  | .array e => e.WellMarked
  | _ => True

/-- What is left of an expression without its wrappers. -/
def heart : TypeExpr → TypeExpr
  | .array e => e.heart
  | .nullable e => e.heart
  | e => e

theorem levels_eq_cons (e : TypeExpr) : e.levels = e :: e.levels.tail := by
  cases e <;> rfl

/-! ## Wrappers -/

/-- An expression has the wrappers of a type around a name. -/
structure Expresses (e : TypeExpr) (t : ResolvedType) (called : String) : Prop where
  /-- There is one array for each list. -/
  arrays : e.arrays = t.lists
  /-- The expression is nullable at a level just if the type is not marked as non-null there. -/
  levels : List.Forall₂ (fun t e => isNullable e = !ResolvedType.isNonNull t) t.levels e.levels
  /-- Marks for null do not stand on each other. -/
  wellMarked : e.WellMarked
  heart : e.heart = .named called

namespace Expresses

variable {t : ResolvedType} {e : TypeExpr} {called : String}

theorem named (kind : TypeKind) (name called : String) :
    (nullable (.named called)).Expresses (.named kind name) called where
  arrays := rfl
  levels := .cons rfl .nil
  wellMarked := ⟨rfl, trivial⟩
  heart := rfl

theorem list (h : e.Expresses t called) : (nullable (.array e)).Expresses (.list t) called where
  arrays := congrArg (· + 1) h.arrays
  levels := .cons rfl h.levels
  wellMarked := ⟨rfl, h.wellMarked⟩
  heart := h.heart

/-- The mark for null is taken off where there is a mark for non-null. -/
theorem nonNull (h : (nullable e).Expresses t called) : e.Expresses (.nonNull t) called where
  arrays := h.arrays
  levels := by
    have hlevels := h.levels
    rw [levels_eq_cons, List.forall₂_cons_right_iff] at hlevels
    obtain ⟨t', ts, -, hinner, htail⟩ := hlevels
    rw [ResolvedType.levels, htail, levels_eq_cons]
    exact .cons h.wellMarked.1 hinner
  wellMarked := h.wellMarked.2
  heart := h.heart

end Expresses

/-- **What mirrors a type** has its wrappers. -/
theorem expresses_mirror (called : String) {t : ResolvedType} (h : t.WellWrapped) :
    (mirror (.named called) t).Expresses t called := by
  induction t with
  | named kind name => exact .named kind name called
  | list t ih => exact (ih h).list
  | nonNull t ih =>
    have hinner := ih h.2
    rw [mirror, if_neg (by simp [h.1])] at hinner
    exact hinner.nonNull

end TypeExpr

/-! ## Types that are expressed -/

namespace Options

variable {o : Options} {naming : CompositeNaming} {t : ResolvedType} {e : TypeExpr}

theorem exists_namedExpr_eq (o : Options) (naming : CompositeNaming) (kind : TypeKind)
    (name : String) : ∃ called, o.namedExpr naming kind name = .named called := by
  cases kind with
  | scalar =>
    rw [namedExpr, scalarExpr]
    split
    · exact ⟨_, rfl⟩
    · split <;> exact ⟨_, rfl⟩
  | enum | inputObject | object | interface | union => exact ⟨_, rfl⟩

theorem wellWrapped_of_innerTypeExpr (h : o.innerTypeExpr naming t = .ok e) :
    t.isNonNull = false ∧ t.WellWrapped := by
  induction t using innerTypeExpr.induct generalizing e with
  | case1 kind name => exact ⟨rfl, trivial⟩
  | case2 t ih =>
    rw [innerTypeExpr] at h
    obtain ⟨e', he', -⟩ := map_eq_ok_iff.1 h
    exact ⟨rfl, ih he'⟩
  | case3 t ih =>
    rw [innerTypeExpr] at h
    obtain ⟨e', he', -⟩ := map_eq_ok_iff.1 h
    exact ⟨rfl, (ih he').2⟩
  | case4 kind name => exact ⟨rfl, trivial⟩
  | case5 t =>
    rw [innerTypeExpr] at h
    cases h

/-- **Which types are expressed**: those in which no mark for non-null stands on another one. -/
theorem exists_typeExpr_iff : (∃ e, o.typeExpr naming t = .ok e) ↔ t.WellWrapped := by
  refine ⟨?_, o.exists_typeExpr naming⟩
  rintro ⟨e, h⟩
  cases t with
  | nonNull t => exact wellWrapped_of_innerTypeExpr h
  | named kind name => trivial
  | list t =>
    rw [typeExpr] at h
    · obtain ⟨e', he', -⟩ := map_eq_ok_iff.1 h
      exact (wellWrapped_of_innerTypeExpr he').2
    · intro u hu
      cases hu

theorem expresses_of_typeExpr (h : o.typeExpr naming t = .ok e) :
    ∃ called, o.namedExpr naming t.innermostKind t.innermostName = .named called ∧
      e.Expresses t called := by
  obtain ⟨called, hcalled⟩ := o.exists_namedExpr_eq naming t.innermostKind t.innermostName
  refine ⟨called, hcalled, ?_⟩
  rw [typeExpr_eq_mirror h, hcalled]
  exact TypeExpr.expresses_mirror called (exists_typeExpr_iff.1 ⟨e, h⟩)

end Options

/-! ## Sessions -/

/-- From one session to another, at most the custom scalar at the heart of a type has been noted,
for the first time, and nothing else has changed. -/
def Session.NotesAtMost (s : Session) (t : ResolvedType) (s' : Session) : Prop :=
  s' = s ∨ ∃ name, t.innermost = (.scalar, name) ∧ BuiltinScalar.ofName? name = none ∧
    name ∉ s.unmapped ∧ s' = { s with unmapped := s.unmapped ++ [name] }

theorem Session.notesAtMost_noteScalar (o : Options) (t : ResolvedType) (s : Session) :
    s.NotesAtMost t (s.noteScalar (o.unmappedScalar? t)) := by
  rw [Options.unmappedScalar?]
  split
  · rename_i name hheart
    split
    · exact .inl rfl
    · rename_i hunmapped
      rw [Bool.or_eq_true, Option.isSome_iff_ne_none, not_or, not_not] at hunmapped
      rw [noteScalar]
      split
      · exact .inl rfl
      · rename_i hnew
        exact .inr ⟨name, hheart, hunmapped.1,
          fun hmem => hnew (List.contains_iff_mem.2 hmem), rfl⟩
  · exact .inl rfl

/-- **To express a type** is to fail and leave the session alone, or to succeed and note a scalar at
most. -/
theorem Emit.run_typeExpr_cases (o : Options) (naming : CompositeNaming) (t : ResolvedType)
    (s : Session) :
    (∃ err, (typeExpr o naming t).run s = (.error err, s) ∧ ¬ t.WellWrapped) ∨
      ∃ e s', (typeExpr o naming t).run s = (.ok e, s') ∧ t.WellWrapped ∧
        o.typeExpr naming t = .ok e ∧ s.NotesAtMost t s' := by
  rw [run_typeExpr]
  cases h : o.typeExpr naming t with
  | error err =>
    refine .inl ⟨err, rfl, fun hwrapped => ?_⟩
    obtain ⟨e, he⟩ := o.exists_typeExpr naming hwrapped
    rw [h] at he
    cases he
  | ok e =>
    exact .inr ⟨e, _, rfl, Options.exists_typeExpr_iff.1 ⟨e, h⟩, rfl,
      s.notesAtMost_noteScalar o t⟩

/-! ## From references to expressions -/

theorem Schema.display_of_resolve {schema : Schema} {ref : TypeRef} {t : ResolvedType}
    (h : schema.resolve ref = .ok t) : t.display = ref.display := by
  induction ref generalizing t with
  | named name =>
    rw [resolve] at h
    split at h
    · rename_i d hget
      cases h
      exact name_of_get? hget
    · cases h
  | list ref ih =>
    rw [resolve] at h
    obtain ⟨u, hu, rfl⟩ := map_eq_ok_iff.1 h
    rw [ResolvedType.display, TypeRef.display, ih hu]
  | nonNull ref ih =>
    rw [resolve] at h
    split at h
    · cases h
    · obtain ⟨u, hu, rfl⟩ := map_eq_ok_iff.1 h
      rw [ResolvedType.display, TypeRef.display, ih hu]

/-- **Wrappers are kept from references to expressions.**  A reference fails to resolve just if a
mark for non-null stands directly on another one, or if its name is unknown; otherwise the type is
written as the reference and is of the kind that is defined.  A type fails to be expressed just if a
mark for non-null stands directly on another one, and then the session is as it was; otherwise the
expression has the wrappers of the type, around what the named type is called, and at most the
custom scalar at the heart of the type is noted.  So what a reference resolves to is expressed. -/
theorem wrappers_kept :
    (∀ (schema : Schema) (ref : TypeRef),
      ((∃ err, schema.resolve ref = .error err) ↔
        ¬ ref.WellWrapped ∨ schema.get? ref.innermost = none) ∧
      ∀ t, schema.resolve ref = .ok t → t.display = ref.display ∧
        ∃ d, schema.get? ref.innermost = some d ∧ t.innermostKind = d.kind) ∧
    (∀ (o : Options) (naming : CompositeNaming) (t : ResolvedType) (s : Session),
      ((∃ err s', (Emit.typeExpr o naming t).run s = (.error err, s')) ↔ ¬ t.WellWrapped) ∧
      (∀ err s', (Emit.typeExpr o naming t).run s = (.error err, s') → s' = s) ∧
      ∀ e s', (Emit.typeExpr o naming t).run s = (.ok e, s') →
        (∃ called, o.namedExpr naming t.innermostKind t.innermostName = .named called ∧
          e.Expresses t called) ∧
        s.NotesAtMost t s') ∧
    ∀ (schema : Schema) (ref : TypeRef) (t : ResolvedType), schema.resolve ref = .ok t →
      ∀ (o : Options) (naming : CompositeNaming) (s : Session),
        ∃ e s', (Emit.typeExpr o naming t).run s = (.ok e, s') := by
  refine ⟨fun schema ref => ⟨?unresolved, fun t h => ?resolved⟩,
    fun o naming t s => ?expressed, fun schema ref t h o naming s => ?hence⟩
  case unresolved =>
    rw [exists_error_iff, Schema.exists_resolve_iff, not_and_or, Bool.not_eq_true,
      Schema.hasType_eq, Option.isSome_eq_false_iff, Option.isNone_iff_eq_none]
  case resolved =>
    obtain ⟨-, -, d, hget, hheart⟩ := Schema.resolve_spec h
    exact ⟨Schema.display_of_resolve h, d, hget, congrArg Prod.fst hheart⟩
  case expressed =>
    rcases Emit.run_typeExpr_cases o naming t s with
      ⟨err, hrun, hwrapped⟩ | ⟨e, s', hrun, hwrapped, hexpr, hnotes⟩
    · rw [hrun]
      refine ⟨iff_of_true ⟨err, s, rfl⟩ hwrapped, ?_, nofun⟩
      rintro err' s' ⟨⟩
      rfl
    · rw [hrun]
      refine ⟨iff_of_false nofun (not_not_intro hwrapped), nofun, ?_⟩
      rintro e' s'' ⟨⟩
      exact ⟨Options.expresses_of_typeExpr hexpr, hnotes⟩
  case hence =>
    obtain ⟨-, hwrapped, -⟩ := Schema.resolve_spec h
    rcases Emit.run_typeExpr_cases o naming t s with ⟨err, -, hnot⟩ | ⟨e, s', hrun, -⟩
    · exact absurd hwrapped hnot
    · exact ⟨e, s', hrun⟩

/-- A schema with dates. -/
def calendar : Schema :=
  (Schema.ofQueryType "Query").define (.scalar { name := "Date" })

/-- A list of dates is nullable, and its elements are not; and no date is marked twice. -/
theorem wrappers_kept_dates :
    calendar.resolve (.list (.nonNull (.named "Date")))
      = .ok (.list (.nonNull (.named .scalar "Date"))) ∧
    (∃ e s', (Emit.typeExpr {} .own (.list (.nonNull (.named .scalar "Date")))).run
        (Session.start {}) = (.ok e, s') ∧
      e.Expresses (.list (.nonNull (.named .scalar "Date"))) "Date" ∧
      (Session.start {}).NotesAtMost (.list (.nonNull (.named .scalar "Date"))) s') ∧
    ∃ err, (Emit.typeExpr {} .own (.list (.nonNull (.nonNull (.named .scalar "Date"))))).run
      (Session.start {}) = (.error err, Session.start {}) := by
  obtain ⟨-, hexpressed, hhence⟩ := wrappers_kept
  have hresolve : calendar.resolve (.list (.nonNull (.named "Date")))
      = .ok (.list (.nonNull (.named .scalar "Date"))) := by cbv
  refine ⟨hresolve, ?_, ?_⟩
  · obtain ⟨e, s', hrun⟩ := hhence _ _ _ hresolve {} .own (Session.start {})
    obtain ⟨⟨called, hcalled, hexpr⟩, hnotes⟩ := (hexpressed {} .own _ _).2.2 e s' hrun
    obtain rfl : "Date" = called := TypeExpr.named.inj hcalled
    exact ⟨e, s', hrun, hexpr, hnotes⟩
  · have htwice : ¬ (ResolvedType.list (.nonNull (.nonNull (.named .scalar "Date")))).WellWrapped :=
      fun h => Bool.noConfusion h.1
    obtain ⟨err, s', hrun⟩ := (hexpressed {} .own _ (Session.start {})).1.2 htwice
    obtain rfl := (hexpressed {} .own _ _).2.1 err s' hrun
    exact ⟨err, hrun⟩

end ResponseTypes
