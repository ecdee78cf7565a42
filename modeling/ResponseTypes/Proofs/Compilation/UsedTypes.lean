import ResponseTypes.Proofs.Schema.Resolving
import ResponseTypes.Selection.Compilation

/-!
# The types used

While types are gathered, every input object that has been met has its field types either accounted
for or still ahead.  When nothing is ahead any more, the types that were gathered are closed: the
fields of their input objects use nothing else.

## What is here

* `Schema.Accounts` — a type uses nothing but what has been gathered.
* `Schema.Gathered` — what has been gathered while references are still ahead; `Schema.Gathers`
  — gathering goes on.
* `Schema.note_spec`, `Schema.follow_spec`, `Schema.use_spec`.
-/

set_option autoImplicit false

namespace ResponseTypes
namespace Schema

/-- A type is accounted for: its wrappers are sound; the scalar at its heart is a built-in one or is
defined; and the enum or input object at its heart is among the types used. -/
structure Accounts (s : Schema) (u : UsedTypes) (t : ResolvedType) : Prop where
  wrapped : t.WellWrapped
  scalar : t.innermostKind = .scalar → (BuiltinScalar.ofName? t.innermostName).isSome = true ∨
    ∃ d, s.get? t.innermostName = some (.scalar d)
  used : t.innermostKind = .enum ∨ t.innermostKind = .inputObject → t.innermostName ∈ u

/-- The types used are enums and input objects, each met once; and the types of the fields of the
input objects are accounted for, unless they are still to be followed. -/
structure Gathered (s : Schema) (ahead : List TypeRef) (u : UsedTypes) : Prop where
  nodup : u.Nodup
  defined : ∀ name ∈ u, ∃ d, s.get? name = some d ∧ (d.kind = .enum ∨ d.kind = .inputObject)
  closed : ∀ name ∈ u, ∀ d, s.get? name = some (.inputObject d) → ∀ f ∈ d.fields,
    f.type ∈ ahead ∨ ∃ t, s.resolve f.type = .ok t ∧ s.Accounts u t

variable {s : Schema} {u u' : UsedTypes}

theorem Accounts.mono {t : ResolvedType} (h : s.Accounts u t) (hu : u ⊆ u') : s.Accounts u' t where
  wrapped := h.wrapped
  scalar := h.scalar
  used := fun hkind => hu (h.used hkind)

/-- The name of a type is a string, whatever the schema says. -/
theorem accounts_typename (s : Schema) (u : UsedTypes) : s.Accounts u Field.typename.type where
  wrapped := ⟨rfl, trivial⟩
  scalar := fun _ => .inl rfl
  used := by simp [Field.typename, ResolvedType.innermostKind, ResolvedType.innermost]

theorem gathered_nil (s : Schema) : s.Gathered [] [] where
  nodup := .nil
  defined := by simp
  closed := by simp

/-! ## One name -/

theorem mem_insert {name other : String} :
    other ∈ UsedTypes.insert u name ↔ other ∈ u ∨ other = name := by
  rw [← List.contains_iff_mem, contains_insert, Bool.or_eq_true, List.contains_iff_mem,
    beq_iff_eq]

theorem nodup_insert (h : u.Nodup) (name : String) : (UsedTypes.insert u name).Nodup := by
  rw [UsedTypes.insert]
  split
  · exact h
  · rename_i hname
    rw [List.contains_iff_mem] at hname
    refine List.nodup_append.2 ⟨h, by simp, ?_⟩
    rintro other hother _ hlast rfl
    exact hname (List.mem_singleton.1 hlast ▸ hother)

/-- One more enum or input object is gathered; the types of its fields are ahead now. -/
theorem Gathered.insert {ahead ahead' : List TypeRef} (h : s.Gathered ahead u) {name : String}
    {d : TypeDefinition} (hget : s.get? name = some d)
    (hkind : d.kind = .enum ∨ d.kind = .inputObject) (hahead : ahead ⊆ ahead')
    (hfields : ∀ d, s.get? name = some (.inputObject d) → ∀ f ∈ d.fields, f.type ∈ ahead') :
    s.Gathered ahead' (UsedTypes.insert u name) where
  nodup := nodup_insert h.nodup name
  defined := by
    intro other hother
    rcases mem_insert.1 hother with hother | rfl
    · exact h.defined other hother
    · exact ⟨d, hget, hkind⟩
  closed := by
    intro other hother e he f hf
    rcases mem_insert.1 hother with hother | rfl
    · refine (h.closed other hother e he f hf).imp (fun hmem => hahead hmem) ?_
      rintro ⟨t, ht, haccounts⟩
      exact ⟨t, ht, haccounts.mono fun _ hmem => mem_insert.2 (.inl hmem)⟩
    · exact .inl (hfields e he f hf)

/-! ## One type -/

/-- A type that is resolved is accounted for, once the enum or input object at its heart is among
the types used. -/
theorem Accounts.of_resolve {ref : TypeRef} {t : ResolvedType} (ht : s.resolve ref = .ok t)
    (hused : t.innermostKind = .enum ∨ t.innermostKind = .inputObject → t.innermostName ∈ u) :
    s.Accounts u t where
  wrapped := (resolve_spec ht).2.1
  scalar := by
    obtain ⟨-, -, d, hget, hheart⟩ := resolve_spec ht
    intro hkind
    rw [ResolvedType.innermostKind, hheart] at hkind
    rw [ResolvedType.innermostName, hheart]
    cases d with
    | scalar d => exact .inr ⟨d, hget⟩
    | enum d | object d | interface d | union d | inputObject d => cases hkind
  used := hused

theorem note_of_other {t : ResolvedType} (henum : t.innermostKind ≠ .enum)
    (hinput : t.innermostKind ≠ .inputObject) : s.note t u = (u, []) := by
  rw [note]
  split
  · rename_i name hheart
    exact absurd (congrArg Prod.fst hheart) henum
  · rename_i name hheart
    exact absurd (congrArg Prod.fst hheart) hinput
  · rfl

/-- **Noting a type**: its heart is among the types used, and what it uses in turn is ahead. -/
theorem note_spec {ahead : List TypeRef} (h : s.Gathered ahead u) {ref : TypeRef}
    {t : ResolvedType} (ht : s.resolve ref = .ok t) :
    u ⊆ (s.note t u).1 ∧ s.Gathered ((s.note t u).2 ++ ahead) (s.note t u).1 ∧
      s.Accounts (s.note t u).1 t := by
  obtain ⟨-, -, d, hget, hheart⟩ := resolve_spec ht
  have hkind : t.innermostKind = d.kind := congrArg Prod.fst hheart
  have hname : t.innermostName = ref.innermost := congrArg Prod.snd hheart
  have hinsert : u ⊆ UsedTypes.insert u ref.innermost :=
    fun _ hmem => mem_insert.2 (.inl hmem)
  by_cases henum : d.kind = .enum
  · have hnote : s.note t u = (UsedTypes.insert u ref.innermost, []) := by
      rw [note, hheart, henum]
    rw [hnote]
    refine ⟨hinsert, h.insert hget (.inl henum) (List.Subset.refl _) ?_,
      .of_resolve ht fun _ => mem_insert.2 (.inr hname)⟩
    intro e he
    cases hget.symm.trans he
    cases henum
  by_cases hinput : d.kind = .inputObject
  · by_cases hmet : ref.innermost ∈ u
    · have hnote : s.note t u = (u, []) := by
        rw [note, hheart, hinput]
        exact if_pos (List.contains_iff_mem.2 hmet)
      rw [hnote]
      exact ⟨List.Subset.refl _, h, .of_resolve ht fun _ => hname ▸ hmet⟩
    · -- An input object that is met for the first time brings in the types of its fields.
      cases d with
      | inputObject d =>
        have hnote : s.note t u
            = (UsedTypes.insert u ref.innermost, d.fields.map fun f => f.type) := by
          rw [note, hheart, hinput]
          simp only
          rw [if_neg (by simpa using hmet), hget]
        rw [hnote]
        refine ⟨hinsert, h.insert hget (.inr rfl) (List.subset_append_right _ _) ?_,
          .of_resolve ht fun _ => mem_insert.2 (.inr hname)⟩
        intro e he f hf
        cases hget.symm.trans he
        exact List.mem_append_left _ (List.mem_map_of_mem hf)
      | scalar d | enum d | object d | interface d | union d => cases hinput
  · rw [note_of_other (hkind ▸ henum) (hkind ▸ hinput)]
    refine ⟨List.Subset.refl _, h, .of_resolve ht ?_⟩
    rintro (hother | hother)
    · exact absurd (hkind.symm.trans hother) henum
    · exact absurd (hkind.symm.trans hother) hinput

/-! ## All types -/

/-- **Following references**: nothing is ahead in the end, and all of them are accounted for. -/
theorem follow_spec {ahead : List TypeRef} (h : s.Gathered ahead u)
    (hfollow : s.follow ahead u = .ok u') :
    u ⊆ u' ∧ s.Gathered [] u' ∧
      ∀ ref ∈ ahead, ∃ t, s.resolve ref = .ok t ∧ s.Accounts u' t := by
  induction ahead, u using follow.induct s with
  | case1 u =>
    rw [follow] at hfollow
    cases hfollow
    exact ⟨List.Subset.refl _, h, by simp⟩
  | case2 ref rest u e ht =>
    rw [follow, ht] at hfollow
    cases hfollow
  | case3 ref rest u t ht ih =>
    rw [follow, ht] at hfollow
    obtain ⟨hkept, hgathered, haccounts⟩ := note_spec h ht
    -- The reference is not ahead any more: its type is accounted for now.
    have hrest : s.Gathered ((s.note t u).2 ++ rest) (s.note t u).1 := by
      refine ⟨hgathered.nodup, hgathered.defined, fun name hname d hget f hf => ?_⟩
      rcases hgathered.closed name hname d hget f hf with hmem | haccounted
      · rcases List.mem_append.1 hmem with hnew | hold
        · exact .inl (List.mem_append_left _ hnew)
        · rcases List.mem_cons.1 hold with heq | hold
          · exact .inr ⟨t, heq ▸ ht, haccounts⟩
          · exact .inl (List.mem_append_right _ hold)
      · exact .inr haccounted
    obtain ⟨hkept', hgathered', hahead⟩ := ih hrest hfollow
    refine ⟨List.Subset.trans hkept hkept', hgathered', List.forall_mem_cons.2 ⟨?_, ?_⟩⟩
    · exact ⟨t, ht, haccounts.mono hkept'⟩
    · exact fun other hother => hahead other (List.mem_append_right _ hother)

/-- More types have been gathered, and nothing is ahead. -/
structure Gathers (s : Schema) (u u' : UsedTypes) : Prop where
  kept : u ⊆ u'
  gathered : s.Gathered [] u'

theorem Gathers.refl (h : s.Gathered [] u) : s.Gathers u u :=
  ⟨List.Subset.refl _, h⟩

theorem Gathers.trans {u'' : UsedTypes} (h : s.Gathers u u') (h' : s.Gathers u' u'') :
    s.Gathers u u'' :=
  ⟨List.Subset.trans h.kept h'.kept, h'.gathered⟩

/-- **Using a type**: it is accounted for, and so is everything it uses. -/
theorem use_spec (h : s.Gathered [] u) {ref : TypeRef} {t : ResolvedType}
    (ht : s.resolve ref = .ok t) (huse : s.use t u = .ok u') :
    s.Gathers u u' ∧ s.Accounts u' t := by
  obtain ⟨hkept, hgathered, haccounts⟩ := note_spec h ht
  rw [List.append_nil] at hgathered
  obtain ⟨hkept', hgathered', -⟩ := follow_spec hgathered huse
  exact ⟨⟨List.Subset.trans hkept hkept', hgathered'⟩, haccounts.mono hkept'⟩

end Schema
end ResponseTypes
