import ResponseTypes.Proofs.TypeExpr.Mirroring
import ResponseTypes.Schema.Interchange
import ResponseTypes.Schema.Validation

/-!
# What references resolve to

A reference resolves to a type with the same wrappers, whose heart is what the schema defines under
the name.  Since a mark for non-null never stands on another one there, the type can always be
expressed.

Validation goes over the definitions that are listed, and lookup finds one of these through the
index; so what validation checks holds of whatever is looked up.

## What is here

* `ResolvedType.WellWrapped` and `Options.exists_typeExpr`.
* `Schema.resolve_spec` — what a reference resolves to; `Schema.exists_resolve_iff` — which
  references do.
* `Schema.checkAll_eq_ok_iff`, `Schema.checkUnique_eq_ok_iff`, `Schema.checkKind_eq_ok_iff` and
  `Schema.checkRef_eq_ok_iff` — when the checks of a schema succeed.
* `Schema.hasType_of_rootType?`, `Schema.output_of_validate` and `Schema.input_of_validate` — what
  validation says of the types that operations start from, and of those of fields.
-/

set_option autoImplicit false

namespace ResponseTypes

/-! ## Wrappers -/

/-- No mark for non-null stands directly on another one. -/
def ResolvedType.WellWrapped : ResolvedType → Prop
  | .named _ _ => True
  | .list t => t.WellWrapped
  | .nonNull t => t.isNonNull = false ∧ t.WellWrapped

/-- In a reference, no mark for non-null stands directly on another one. -/
def TypeRef.WellWrapped : TypeRef → Prop
  | .named _ => True
  | .list t => t.WellWrapped
  | .nonNull t => t.isNonNull = false ∧ t.WellWrapped

namespace Options

theorem exists_innerTypeExpr (o : Options) (naming : CompositeNaming) {t : ResolvedType}
    (hnullable : t.isNonNull = false) (h : t.WellWrapped) :
    ∃ e, o.innerTypeExpr naming t = .ok e := by
  induction t using innerTypeExpr.induct with
  | case1 kind name => exact ⟨_, by rw [innerTypeExpr]⟩
  | case2 t ih =>
    obtain ⟨e, he⟩ := ih h.1 h.2
    exact ⟨_, by rw [innerTypeExpr, he]; rfl⟩
  | case3 t ih =>
    obtain ⟨e, he⟩ := ih rfl h
    exact ⟨_, by rw [innerTypeExpr, he]; rfl⟩
  | case4 kind name => exact ⟨_, by rw [innerTypeExpr]⟩
  | case5 t => cases hnullable

/-- **A type can be expressed** if no mark for non-null stands on another one. -/
theorem exists_typeExpr (o : Options) (naming : CompositeNaming) {t : ResolvedType}
    (h : t.WellWrapped) : ∃ e, o.typeExpr naming t = .ok e := by
  cases hmark : t.isNonNull with
  | true =>
    cases t with
    | nonNull t =>
      obtain ⟨e, he⟩ := o.exists_innerTypeExpr naming h.1 h.2
      exact ⟨e, by rw [typeExpr, he]⟩
    | named kind name => cases hmark
    | list t => cases hmark
  | false =>
    obtain ⟨e, he⟩ := o.exists_innerTypeExpr naming hmark h
    refine ⟨.nullable e, ?_⟩
    rw [typeExpr, he]
    · rfl
    · rintro u rfl
      cases hmark

end Options

namespace Schema

variable {s : Schema}

/-! ## Lookup -/

theorem hasType_of_get? {name : String} {d : TypeDefinition} (h : s.get? name = some d) :
    s.hasType name = true := by
  rw [hasType_eq, h]
  rfl

/-- **What a reference resolves to**: its wrappers are sound, and its heart is a definition. -/
theorem resolve_spec {ref : TypeRef} {t : ResolvedType} (h : s.resolve ref = .ok t) :
    t.isNonNull = ref.isNonNull ∧ t.WellWrapped ∧
      ∃ d, s.get? ref.innermost = some d ∧ t.innermost = (d.kind, ref.innermost) := by
  induction ref generalizing t with
  | named name =>
    rw [resolve] at h
    split at h
    · rename_i d hget
      cases h
      refine ⟨rfl, trivial, d, hget, ?_⟩
      rw [TypeDefinition.resolved, ResolvedType.innermost, name_of_get? hget]
      rfl
    · cases h
  | list ref ih =>
    rw [resolve] at h
    obtain ⟨t, ht, rfl⟩ := map_eq_ok_iff.1 h
    exact ⟨rfl, (ih ht).2⟩
  | nonNull ref ih =>
    rw [resolve] at h
    split at h
    · cases h
    · rename_i hmark
      obtain ⟨t, ht, rfl⟩ := map_eq_ok_iff.1 h
      obtain ⟨hsame, hwrapped, hheart⟩ := ih ht
      exact ⟨rfl, ⟨by simpa [hsame] using hmark, hwrapped⟩, hheart⟩

/-- **Which references resolve**: those to a name that is defined, with sound wrappers. -/
theorem exists_resolve_iff {ref : TypeRef} :
    (∃ t, s.resolve ref = .ok t) ↔ ref.WellWrapped ∧ s.hasType ref.innermost = true := by
  induction ref with
  | named name =>
    rw [resolve, TypeRef.WellWrapped, TypeRef.innermost, hasType_eq]
    cases s.get? name <;> simp
  | list ref ih =>
    rw [TypeRef.WellWrapped, TypeRef.innermost, ← ih]
    simp only [resolve, map_eq_ok_iff]
    exact ⟨fun ⟨_, t, ht, _⟩ => ⟨t, ht⟩, fun ⟨t, ht⟩ => ⟨_, t, ht, rfl⟩⟩
  | nonNull ref ih =>
    rw [TypeRef.WellWrapped, TypeRef.innermost, and_assoc, ← ih]
    simp only [resolve]
    cases hmark : ref.isNonNull with
    | true => simp
    | false =>
      simp only [Bool.false_eq_true, if_false, true_and, map_eq_ok_iff]
      exact ⟨fun ⟨_, t, ht, _⟩ => ⟨t, ht⟩, fun ⟨t, ht⟩ => ⟨_, t, ht, rfl⟩⟩

/-! ## Built-in scalars -/

/-- What defining something keeps holds after the built-in scalars have been defined. -/
theorem defineBuiltins_induction {P : Schema → Prop}
    (hdefine : ∀ (s : Schema) (b : BuiltinScalar), P s → P (s.define (.scalar { name := b.name })))
    (h : P s) : P s.defineBuiltins := by
  rw [Schema.defineBuiltins]
  generalize BuiltinScalar.all = builtins
  induction builtins generalizing s with
  | nil => exact h
  | cons b builtins ih =>
    refine ih ?_
    rw [defineBuiltin]
    split
    · exact h
    · exact hdefine s b h

/-! ## Validation -/

theorem checkAll_eq_ok_iff {α : Type} {check : α → Except SchemaError Unit} {as : List α} :
    checkAll check as = .ok () ↔ ∀ a ∈ as, check a = .ok () := by
  induction as with
  | nil => simp [checkAll]
  | cons a as ih => rw [checkAll, then_eq_ok_iff, ih, List.forall_mem_cons]

/-- Names are unique if none comes twice and none was seen before. -/
theorem checkUnique_eq_ok_iff {α : Type} {name duplicate : α → String}
    {check : α → Except SchemaError Unit} {seen : List String} {as : List α} :
    checkUnique name duplicate check seen as = .ok () ↔
      (∀ a ∈ as, name a ∉ seen) ∧ (as.map name).Nodup ∧ ∀ a ∈ as, check a = .ok () := by
  induction as generalizing seen with
  | nil => simp [checkUnique]
  | cons a as ih =>
    rw [checkUnique, List.forall_mem_cons, List.map_cons, List.nodup_cons, List.forall_mem_cons]
    by_cases hseen : name a ∈ seen
    · rw [if_pos (List.contains_iff_mem.2 hseen)]
      exact iff_of_false (by simp) fun h => h.1.1 hseen
    · rw [if_neg (mt List.contains_iff_mem.1 hseen), then_eq_ok_iff, ih]
      -- A name behind the first was not seen before just if it differs from the first one, too.
      have hfirst : (∀ b ∈ as, name b ∉ name a :: seen) ↔
          (∀ b ∈ as, name b ∉ seen) ∧ name a ∉ as.map name := by
        simp only [List.mem_cons, not_or, List.mem_map, not_exists, not_and, forall_and]
        exact and_comm
      rw [hfirst]
      constructor
      · rintro ⟨ha, ⟨hunseen, hname⟩, hnodup, has⟩
        exact ⟨⟨hseen, hunseen⟩, ⟨hname, hnodup⟩, ha, has⟩
      · rintro ⟨⟨-, hunseen⟩, ⟨hname, hnodup⟩, ha, has⟩
        exact ⟨ha, ⟨hunseen, hname⟩, hnodup, has⟩

theorem checkKind_eq_ok_iff {name : String} {isExpected : TypeKind → Bool}
    {expected : Expectation} :
    s.checkKind name isExpected expected = .ok () ↔
      ∃ d, s.get? name = some d ∧ isExpected d.kind = true := by
  rw [checkKind]
  cases hget : s.get? name with
  | none => simp
  | some d => cases hkind : isExpected d.kind <;> simp [hkind]

theorem checkRef_eq_ok_iff {ref : TypeRef} {isExpected : TypeKind → Bool}
    {expected : Expectation} :
    s.checkRef ref isExpected expected = .ok () ↔
      ref.WellWrapped ∧ ∃ d, s.get? ref.innermost = some d ∧ isExpected d.kind = true := by
  have hresolve : (∃ t, s.resolve ref = .ok t) ↔
      ref.WellWrapped ∧ s.hasType ref.innermost = true := exists_resolve_iff
  rw [checkRef, bind_eq_ok_iff]
  cases hget : s.get? ref.innermost with
  | none => simp
  | some d =>
    rw [hasType_eq, hget] at hresolve
    cases hkind : isExpected d.kind <;> simp_all

/-- The roots are checked in the order of the kinds of operations. -/
theorem mem_roots_iff {name : String} :
    name ∈ s.queryType :: (s.mutationType?.toList ++ s.subscriptionType?.toList) ↔
      ∃ kind, s.rootType? kind = some name := by
  rw [List.mem_cons, List.mem_append, Option.mem_toList, Option.mem_toList]
  constructor
  · rintro (rfl | h | h)
    · exact ⟨.query, rfl⟩
    · exact ⟨.mutation, h⟩
    · exact ⟨.subscription, h⟩
  · rintro ⟨kind, h⟩
    cases kind with
    | query => exact .inl (Option.some.inj h).symm
    | mutation => exact .inr (.inl h)
    | subscription => exact .inr (.inr h)

/-- The types that the operations of a valid schema start from exist. -/
theorem hasType_of_rootType? (h : s.validate = .ok ()) {kind : OperationKind} {name : String}
    (hroot : s.rootType? kind = some name) : s.hasType name = true := by
  obtain ⟨⟨⟩, -, h⟩ := bind_eq_ok_iff.1 h
  obtain ⟨⟨⟩, hroots, -⟩ := bind_eq_ok_iff.1 h
  obtain ⟨d, hget, -⟩ := checkKind_eq_ok_iff.1
    (checkAll_eq_ok_iff.1 hroots name (mem_roots_iff.2 ⟨kind, hroot⟩))
  exact hasType_of_get? hget

section Fields

variable (h : s.validate = .ok ())

include h

/-- A definition that lookup knows has been checked. -/
theorem validateType_of_get? {name : String} {d : TypeDefinition} (hget : s.get? name = some d) :
    s.validateType d = .ok () := by
  obtain ⟨⟨⟩, -, h⟩ := bind_eq_ok_iff.1 h
  obtain ⟨⟨⟩, -, h⟩ := bind_eq_ok_iff.1 h
  exact checkAll_eq_ok_iff.1 h _ (mem_types_of_get? hget)

/-- **The fields of objects and interfaces** of a valid schema have output types. -/
theorem output_of_validate {typeName name : String} {f : FieldDefinition}
    (hf : s.field? typeName name = some f) :
    f.type.WellWrapped ∧ ∃ e, s.get? f.type.innermost = some e ∧ e.kind.isOutput = true := by
  obtain ⟨d, hget, hf⟩ := Option.bind_eq_some_iff.1 hf
  obtain ⟨fields, hfields, hf⟩ := Option.bind_eq_some_iff.1 hf
  have hchecked := validateType_of_get? h hget
  have hvalid : s.validateFields d.name fields = .ok () := by
    cases d with
    | object d =>
      cases hfields
      exact (then_eq_ok_iff.1 hchecked).1
    | interface d =>
      cases hfields
      exact hchecked
    | scalar d | enum d | union d | inputObject d => cases hfields
  exact checkRef_eq_ok_iff.1
    ((checkUnique_eq_ok_iff.1 hvalid).2.2 f (List.mem_of_find?_eq_some hf))

/-- **The fields of input objects** of a valid schema have input types. -/
theorem input_of_validate {name : String} {d : InputObjectDefinition}
    (hget : s.get? name = some (.inputObject d)) {f : InputField} (hf : f ∈ d.fields) :
    f.type.WellWrapped ∧ ∃ e, s.get? f.type.innermost = some e ∧ e.kind.isInput = true := by
  have hchecked := validateType_of_get? h hget
  exact checkRef_eq_ok_iff.1 ((checkUnique_eq_ok_iff.1 hchecked).2.2 f hf)

end Fields

end Schema
end ResponseTypes
