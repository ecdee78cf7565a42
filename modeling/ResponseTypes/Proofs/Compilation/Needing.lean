import ResponseTypes.Proofs.Compilation.UsedTypes

/-!
# What a type needs

A type needs the enum or input object at its heart, and an input object needs what the types of its
fields need.  Following references gathers exactly that, though it does not open an input object
that is among the types used already: either it has been opened before, or it is being opened and
the types of its fields are still ahead.  So it does not matter what has been gathered before; nor
does it matter to whether all that is needed can be resolved.

## What is here

* `Schema.Needs` — the enums and input objects a type needs.
* `Schema.mem_use_iff` — using a type gathers what it needs; `Schema.exists_use_iff` says when that
  succeeds.
* `Schema.Follows` — one step of following references; `Schema.wellFounded_follows` says that they
  come to an end.
-/

set_option autoImplicit false

namespace ResponseTypes
namespace Schema

/-- A type needs the enum or input object at its heart, and all that the types of the fields of an
input object need. -/
inductive Needs (s : Schema) : ResolvedType → String → Prop where
  | heart {t : ResolvedType} (hkind : t.innermostKind = .enum ∨ t.innermostKind = .inputObject) :
    Needs s t t.innermostName
  | field {t t' : ResolvedType} {d : InputObjectDefinition} {f : InputField} {name : String}
    (hkind : t.innermostKind = .inputObject)
    (hget : s.get? t.innermostName = some (.inputObject d)) (hf : f ∈ d.fields)
    (ht : s.resolve f.type = .ok t') (h : Needs s t' name) : Needs s t name

/-- All that a type needs can be resolved. -/
def Complete (s : Schema) (t : ResolvedType) : Prop :=
  ∀ name, s.Needs t name → ∀ d, s.get? name = some (.inputObject d) → ∀ f ∈ d.fields,
    ∃ t', s.resolve f.type = .ok t'

variable {s : Schema} {u u' : UsedTypes} {t : ResolvedType}

/-- If nothing is ahead, what a type needs that is accounted for is among the types used. -/
theorem Needs.mem {name : String} (h : s.Needs t name) (hu : s.Gathered [] u)
    (ht : s.Accounts u t) : name ∈ u := by
  induction h with
  | heart hkind => exact ht.used hkind
  | @field t t' d f name hkind hget hf ht' _ ih =>
    rcases hu.closed _ (ht.used (.inr hkind)) d hget f hf with hahead | ⟨t'', ht'', haccounts⟩
    · cases hahead
    · cases ht'.symm.trans ht''
      exact ih haccounts

/-- The type of a field of an input object is complete if the input object is. -/
theorem Complete.field (h : s.Complete t) (hkind : t.innermostKind = .inputObject)
    {d : InputObjectDefinition} (hget : s.get? t.innermostName = some (.inputObject d))
    {f : InputField} (hf : f ∈ d.fields) : ∃ t', s.resolve f.type = .ok t' ∧ s.Complete t' := by
  obtain ⟨t', ht'⟩ := h _ (.heart (.inr hkind)) d hget f hf
  exact ⟨t', ht', fun name hname => h name (.field hkind hget hf ht' hname)⟩

/-! ## One type -/

/-- **What noting a type does**: it adds no name but that at the heart of the type, and what is
ahead then are the types of the fields of an input object. -/
theorem note_cases (s : Schema) (t : ResolvedType) (u : UsedTypes) :
    (∀ name ∈ (s.note t u).1, name ∈ u ∨ s.Needs t name) ∧
      ∀ ref ∈ (s.note t u).2, t.innermostKind = .inputObject ∧
        ∃ d, s.get? t.innermostName = some (.inputObject d) ∧ ∃ f ∈ d.fields, f.type = ref := by
  have hinsert : t.innermostKind = .enum ∨ t.innermostKind = .inputObject →
      ∀ name ∈ UsedTypes.insert u t.innermostName, name ∈ u ∨ s.Needs t name := by
    intro hkind name hname
    rcases mem_insert.1 hname with hname | rfl
    · exact .inl hname
    · exact .inr (.heart hkind)
  by_cases henum : t.innermostKind = .enum
  · have hheart : t.innermost = (.enum, t.innermostName) := by rw [← henum]; rfl
    have hnote : s.note t u = (UsedTypes.insert u t.innermostName, []) := by rw [note, hheart]
    rw [hnote]
    exact ⟨hinsert (.inl henum), by simp⟩
  by_cases hinput : t.innermostKind = .inputObject
  · have hheart : t.innermost = (.inputObject, t.innermostName) := by rw [← hinput]; rfl
    rw [note, hheart]
    simp only
    split
    · exact ⟨fun _ hname => .inl hname, by simp⟩
    · split
      · rename_i d hget
        refine ⟨hinsert (.inr hinput), fun ref href => ⟨hinput, d, hget, ?_⟩⟩
        exact List.mem_map.1 href
      · exact ⟨hinsert (.inr hinput), by simp⟩
  · rw [note_of_other henum hinput]
    exact ⟨fun _ hname => .inl hname, by simp⟩

/-! ## All types -/

/-- Following references gathers nothing that is not needed. -/
theorem needs_of_mem_follow {ahead : List TypeRef} (h : s.follow ahead u = .ok u') :
    ∀ name ∈ u', name ∈ u ∨ ∃ ref ∈ ahead, ∃ t, s.resolve ref = .ok t ∧ s.Needs t name := by
  induction ahead, u using follow.induct s with
  | case1 u =>
    rw [follow] at h
    cases h
    exact fun _ hname => .inl hname
  | case2 ref rest u e ht =>
    rw [follow, ht] at h
    cases h
  | case3 ref rest u t ht ih =>
    rw [follow, ht] at h
    obtain ⟨hnames, hfields⟩ := s.note_cases t u
    intro name hname
    rcases ih h name hname with hname | ⟨other, hother, t', ht', hneeds⟩
    · exact (hnames name hname).imp_right fun hneeds => ⟨ref, List.mem_cons_self, t, ht, hneeds⟩
    · rcases List.mem_append.1 hother with hother | hother
      · obtain ⟨hkind, d, hget, f, hf, rfl⟩ := hfields other hother
        exact .inr ⟨ref, List.mem_cons_self, t, ht, .field hkind hget hf ht' hneeds⟩
      · exact .inr ⟨other, List.mem_cons_of_mem _ hother, t', ht', hneeds⟩

/-- Following references succeeds if all that is needed can be resolved. -/
theorem exists_follow_of_complete {ahead : List TypeRef}
    (hahead : ∀ ref ∈ ahead, ∃ t, s.resolve ref = .ok t ∧ s.Complete t) :
    ∃ u', s.follow ahead u = .ok u' := by
  induction ahead, u using follow.induct s with
  | case1 u => exact ⟨u, by rw [follow]⟩
  | case2 ref rest u e ht =>
    obtain ⟨t, ht', -⟩ := hahead ref List.mem_cons_self
    cases ht.symm.trans ht'
  | case3 ref rest u t ht ih =>
    obtain ⟨t', ht', hcomplete⟩ := hahead ref List.mem_cons_self
    cases ht.symm.trans ht'
    rw [follow, ht]
    refine ih fun other hother => ?_
    rcases List.mem_append.1 hother with hother | hother
    · obtain ⟨hkind, d, hget, f, hf, rfl⟩ := (s.note_cases t u).2 other hother
      exact hcomplete.field hkind hget hf
    · exact hahead other (List.mem_cons_of_mem _ hother)

/-- Using a type succeeds if all that it needs can be resolved. -/
theorem Complete.exists_use (h : s.Complete t) (u : UsedTypes) : ∃ u', s.use t u = .ok u' := by
  refine exists_follow_of_complete fun ref href => ?_
  obtain ⟨hkind, d, hget, f, hf, rfl⟩ := (s.note_cases t u).2 ref href
  exact h.field hkind hget hf

/-- **Using a type gathers what it needs**, and nothing else. -/
theorem mem_use_iff (hu : s.Gathered [] u) {ref : TypeRef} (ht : s.resolve ref = .ok t)
    (huse : s.use t u = .ok u') {name : String} : name ∈ u' ↔ name ∈ u ∨ s.Needs t name := by
  obtain ⟨hgathers, haccounts⟩ := use_spec hu ht huse
  constructor
  · intro hname
    obtain ⟨hnames, hfields⟩ := s.note_cases t u
    rcases needs_of_mem_follow huse name hname with hname | ⟨other, hother, t', ht', hneeds⟩
    · exact hnames name hname
    · obtain ⟨hkind, d, hget, f, hf, rfl⟩ := hfields other hother
      exact .inr (.field hkind hget hf ht' hneeds)
  · rintro (hname | hneeds)
    · exact hgathers.kept hname
    · exact hneeds.mem hgathers.gathered haccounts

/-- **When a type can be used**: all that it needs can be resolved.  This does not depend on what
has been gathered before. -/
theorem exists_use_iff (hu : s.Gathered [] u) {ref : TypeRef} (ht : s.resolve ref = .ok t) :
    (∃ u', s.use t u = .ok u') ↔ s.Complete t := by
  constructor
  · rintro ⟨u', huse⟩ name hneeds d hget f hf
    obtain ⟨hgathers, haccounts⟩ := use_spec hu ht huse
    have hname := hneeds.mem hgathers.gathered haccounts
    rcases hgathers.gathered.closed name hname d hget f hf with hahead | ⟨t', ht', -⟩
    · cases hahead
    · exact ⟨t', ht'⟩
  · exact fun hcomplete => hcomplete.exists_use u

/-! ## There is an end -/

/-- One step of following references: from those that are ahead and the types used to those that are
ahead next. -/
inductive Follows (s : Schema) : List TypeRef × UsedTypes → List TypeRef × UsedTypes → Prop where
  | step {ref : TypeRef} {rest : List TypeRef} {u : UsedTypes} {t : ResolvedType}
    (ht : s.resolve ref = .ok t) :
    Follows s (ref :: rest, u) ((s.note t u).2 ++ rest, (s.note t u).1)

/-- **Following references ends**, on every schema: there is no infinite run of steps, whatever is
ahead, and however input objects hold each other. -/
theorem wellFounded_follows (s : Schema) : WellFounded (flip s.Follows) := by
  constructor
  rintro ⟨ahead, u⟩
  induction ahead, u using follow.induct s with
  | case1 u =>
    refine ⟨_, fun next hnext => ?_⟩
    cases hnext
  | case2 ref rest u e ht =>
    refine ⟨_, fun next hnext => ?_⟩
    cases hnext with
    | step ht' => cases ht.symm.trans ht'
  | case3 ref rest u t ht ih =>
    refine ⟨_, fun next hnext => ?_⟩
    cases hnext with
    | step ht' =>
      cases ht.symm.trans ht'
      exact ih

end Schema
end ResponseTypes
