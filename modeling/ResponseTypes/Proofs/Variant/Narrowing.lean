import Mathlib.Data.List.Permutation
import ResponseTypes.Proofs.Variant.Partition
import ResponseTypes.Schema.Validation
import ResponseTypes.Selection.Compilation

/-!
# When the type name is narrowed soundly

In a variant, the name of the type is narrowed to the object types of the variant.  Which fields ask
for the name of the type is read off the first of these object types, though, and object types are
sorted by the keys, types and selections of their fields, not by the names.  So a string that
another object type of the variant yields under the same key may be taken for the name of the type.

That is the only way in which narrowing goes wrong.

## What is here

* `Variant.NarrowsSoundly` — the narrowed names are all the names there can be.
* `Variant.MistakesField` — another field is taken for the name of the type.
* `Collector.narrowsSoundly_iff` — one is the negation of the other.
* `exists_not_narrowsSoundly` — a valid schema and a document for which a field is mistaken.
-/

set_option autoImplicit false

namespace ResponseTypes

/-! ## Leading fields -/

namespace Collector

/-- A field is the first of its key that is come across for an object type. -/
def Leads (x : Collector) (set : SelectionSet) (object : String) (f : Field) : Prop :=
  ∃ p set?, (x.encounters set (some object)).find? (Encounter.hasKey f.key)
    = some (.field p f set?)

variable {x : Collector} {set : SelectionSet} {object : String} {c : Collected}

theorem Leads.eq_of_key {f g : Field} (hf : x.Leads set object f) (hg : x.Leads set object g)
    (h : f.key = g.key) : f = g := by
  obtain ⟨p, set?, hf⟩ := hf
  obtain ⟨q, set?', hg⟩ := hg
  rw [h, hg] at hf
  cases hf
  rfl

/-- What is collected under a key has name and type of the field that leads there. -/
theorem exists_leads_of_mem (hc : x.collect set (some object) = .ok c) {m : MergedField}
    (hm : m ∈ c.fields) :
    ∃ f, x.Leads set object f ∧ f.key = m.key ∧ f.name = m.name ∧ f.type = m.type := by
  obtain ⟨p, f, set?, hhead, heq⟩ := Encounter.eq_of_merged? ((sums_of_collect hc).fields m hm)
  have hkey : f.key = m.key := by
    rw [heq]
    rfl
  refine ⟨f, ⟨p, set?, ?_⟩, hkey, ?_, ?_⟩
  · rw [← List.head?_filter, hkey, hhead]
  · rw [heq]
    rfl
  · rw [heq]
    rfl

theorem exists_mem_of_leads (hc : x.collect set (some object) = .ok c) {f : Field}
    (hf : x.Leads set object f) :
    ∃ m ∈ c.fields, m.key = f.key ∧ m.name = f.name ∧ m.type = f.type := by
  obtain ⟨p, set?, hfind⟩ := hf
  have hmem := List.mem_of_find?_eq_some hfind
  obtain ⟨m, hm, hkey⟩ := ((sums_of_collect hc).mem_keys f.key).2 ⟨_, hmem, rfl⟩
  obtain ⟨g, hg, hgkey, hname, htype⟩ := exists_leads_of_mem hc hm
  obtain rfl : g = f := hg.eq_of_key ⟨p, set?, hfind⟩ (hgkey.trans hkey)
  exact ⟨m, hm, hkey, hname.symm, htype.symm⟩

end Collector

/-! ## Sound variants -/

namespace Variant

/-- Where a variant narrows a field to some names, these are the names of its object types; and on a
value of each of them the field of that key is the name of the type. -/
def NarrowsSoundly (x : Collector) (set : SelectionSet) (v : Variant) : Prop :=
  ∀ m ∈ v.fields, ∀ names, m.literals? = some names → names = v.possible ∧
    ∀ object ∈ names, ∃ c n, x.collect set (some object) = .ok c ∧ n ∈ c.fields ∧
      n.key = m.key ∧ n.isTypename = true

/-- A variant takes a field for the name of the type: for its first object type the name of the type
leads the fields of a key, for another one a field that is not the name of the type but has the same
type. -/
def MistakesField (x : Collector) (set : SelectionSet) (v : Variant) : Prop :=
  ∃ first ∈ v.possible.head?, ∃ other ∈ v.possible, ∃ f g, x.Leads set first f ∧
    x.Leads set other g ∧ f.key = g.key ∧ f.type = g.type ∧ f.isTypename = true ∧
      g.isTypename = false

/-- Every field that is the name of the type is narrowed, to all object types, and no other is. -/
theorem narrowsSoundly_narrowed_iff {x : Collector} {set : SelectionSet} {v : Variant}
    (h : ∀ m ∈ v.fields, m.literals? = none) :
    v.narrowed.NarrowsSoundly x set ↔ ∀ m ∈ v.fields, m.isTypename = true →
      ∀ object ∈ v.possible, ∃ c n, x.collect set (some object) = .ok c ∧ n ∈ c.fields ∧
        n.key = m.key ∧ n.isTypename = true := by
  constructor
  · intro hsound m hm htype object hobject
    have hmem : { m with literals? := some v.possible } ∈ v.narrowed.fields :=
      mem_narrowed_fields.2 ⟨m, hm, (if_pos htype).symm⟩
    exact (hsound _ hmem _ rfl).2 object hobject
  · intro hall m hm names hnames
    obtain ⟨n, hn, rfl⟩ := mem_narrowed_fields.1 hm
    by_cases htype : n.isTypename = true
    · rw [if_pos htype] at hnames ⊢
      obtain rfl : v.possible = names := Option.some.inj hnames
      exact ⟨rfl, hall n hn htype⟩
    · rw [if_neg htype, h n hn] at hnames
      cases hnames

end Variant

namespace Collector

variable {x : Collector} {set : SelectionSet}

/-- All object types of a variant have the keys of the first one, and the types under these keys. -/
theorem exists_mem_of_alike {object other : String} {c d : Collected}
    (hc : x.collect set (some object) = .ok c) (hd : x.collect set (some other) = .ok d)
    (h : x.alike set object other = true) {m : MergedField} (hm : m ∈ c.fields) :
    ∃ n ∈ d.fields, n.key = m.key ∧ n.type = m.type := by
  rw [alike, yield_eq hc, yield_eq hd, Collected.sameShape_eq_true] at h
  have hshape : m.shape ∈ d.fields.map MergedField.shape :=
    h.1.mem_iff.1 (List.mem_map_of_mem hm)
  obtain ⟨n, hn, heq⟩ := List.mem_map.1 hshape
  simp only [MergedField.shape, Prod.mk.injEq] at heq
  exact ⟨n, hn, heq.1, heq.2.1⟩

/-- A class narrows soundly unless it mistakes a field. -/
theorem narrowsSoundly_class_iff
    (hall : ∀ object ∈ set.possible, ∃ c, x.collect set (some object) = .ok c) {v : Variant}
    (hv : v ∈ x.classes set set.possible) :
    v.narrowed.NarrowsSoundly x set ↔ ¬ v.narrowed.MistakesField x set := by
  obtain ⟨first, hfirst, rfl⟩ := mem_classes.1 hv
  obtain ⟨c, hc⟩ := hall first ((firsts_sublist _ _).subset hfirst)
  have hhead := head?_filter_of_mem_firsts (x.equivalence_alike set) hfirst
  rw [yield_eq hc, Variant.narrowsSoundly_narrowed_iff (sums_of_collect hc).literals?_eq_none]
  constructor
  · rintro hsound ⟨object, hobject, other, hother, f, g, hf, hg, hkey, -, hftype, hgtype⟩
    obtain rfl : object = first := Option.some.inj (hobject.symm.trans hhead)
    obtain ⟨m, hm, hmkey, hmname, -⟩ := exists_mem_of_leads hc hf
    have hmtype : m.isTypename = true := by
      rw [MergedField.isTypename, hmname]
      exact hftype
    obtain ⟨d, n, hd, hn, hnkey, hntype⟩ := hsound m hm hmtype other hother
    obtain ⟨g', hg', hg'key, hg'name, -⟩ := exists_leads_of_mem hd hn
    obtain rfl : g' = g := hg'.eq_of_key hg (hg'key.trans (hnkey.trans (hmkey.trans hkey)))
    rw [MergedField.isTypename, ← hg'name] at hntype
    rw [Field.isTypename, hntype] at hgtype
    cases hgtype
  · intro hmistake m hm hmtype other hother
    obtain ⟨hpossible, halike⟩ := List.mem_filter.1 hother
    obtain ⟨d, hd⟩ := hall other hpossible
    obtain ⟨n, hn, hnkey, hntype⟩ := exists_mem_of_alike hc hd halike hm
    obtain ⟨f, hf, hfkey, hfname, hftype⟩ := exists_leads_of_mem hc hm
    obtain ⟨g, hg, hgkey, hgname, hgtype⟩ := exists_leads_of_mem hd hn
    refine ⟨d, n, hd, hn, hnkey, ?_⟩
    by_contra hne
    refine hmistake ⟨first, hhead, other, hother, f, g, hf, hg, ?_, ?_, ?_, ?_⟩
    · rw [hfkey, hgkey, hnkey]
    · rw [hftype, hgtype, hntype]
    · rw [Field.isTypename, hfname]
      exact hmtype
    · rw [Field.isTypename, hgname]
      simpa [MergedField.isTypename] using hne

/-- A variant that is not narrowed narrows soundly. -/
theorem narrowsSoundly_ofCollected {possible : List String} {object? : Option String}
    {c : Collected} (hc : x.collect set object? = .ok c) :
    (Variant.ofCollected possible c).NarrowsSoundly x set := by
  intro m hm names hnames
  rw [(sums_of_collect hc).literals?_eq_none m hm] at hnames
  cases hnames

/-- Two object types are needed to mistake a field. -/
theorem not_mistakesField {v : Variant}
    (h : ∀ object ∈ v.possible, ∀ other ∈ v.possible, object = other) :
    ¬ v.MistakesField x set := by
  rintro ⟨object, hobject, other, hother, f, g, hf, hg, hkey, -, hftype, hgtype⟩
  obtain rfl := h object (List.mem_of_mem_head? hobject) other hother
  obtain rfl := hf.eq_of_key hg hkey
  rw [hftype] at hgtype
  cases hgtype

/-- A field is narrowed to the object types of its variant, if it is narrowed. -/
theorem literals?_eq_possible {vs : List Variant} (h : x.variants set = .ok vs) :
    ∀ v ∈ vs, ∀ m ∈ v.fields, ∀ names, m.literals? = some names → names = v.possible := by
  intro v hv m hm names hnames
  obtain ⟨possible, object?, c, hc, rfl | rfl⟩ := exists_collect_of_mem_variants h hv
  · exact (narrowsSoundly_ofCollected hc m hm names hnames).1
  · obtain ⟨n, hn, rfl⟩ := Variant.mem_narrowed_fields.1 hm
    split at hnames
    · exact (Option.some.inj hnames).symm
    · cases ((sums_of_collect hc).literals?_eq_none n hn).symm.trans hnames

/-- **When narrowing is sound**: fields are narrowed to the object types of their variant, and the
variants of a selection set narrow soundly if and only if none takes another field for the name of
the type. -/
theorem narrowsSoundly_iff {vs : List Variant} (h : x.variants set = .ok vs) :
    (∀ v ∈ vs, ∀ m ∈ v.fields, ∀ names, m.literals? = some names → names = v.possible) ∧
      ((∀ v ∈ vs, v.NarrowsSoundly x set) ↔ ∀ v ∈ vs, ¬ v.MistakesField x set) := by
  refine ⟨literals?_eq_possible h, ?_⟩
  by_cases hplain : set.possible = [] ∨ set.isPolymorphic = false
  · obtain ⟨object?, c, hc, rfl⟩ := exists_variants_eq_singleton hplain h
    simp only [List.forall_mem_singleton]
    refine iff_of_true (narrowsSoundly_ofCollected hc) (not_mistakesField ?_)
    rcases hplain with hempty | hpolymorphic
    · simp [Variant.ofCollected, hempty]
    · have hpossible : set.possible = [set.parentType] := by
        simpa [SelectionSet.isPolymorphic] using hpolymorphic
      simp [Variant.ofCollected, hpossible]
  · obtain ⟨hempty, hpolymorphic⟩ := not_or.1 hplain
    have hpolymorphic : set.isPolymorphic = true := by simpa using hpolymorphic
    have hall := (x.exists_variants_eq_ok_iff set hpolymorphic hempty).1 ⟨vs, h⟩
    rw [variants_eq_classes hpolymorphic hempty h]
    simp only [List.forall_mem_map]
    exact forall₂_congr fun v hv => narrowsSoundly_class_iff hall hv

end Collector

/-! ## A field that is mistaken -/

/-- Two kinds of characters, which have names. -/
def characters : Schema :=
  let name : FieldDefinition := { name := "name", type := .nonNull (.named "String") }
  Schema.ofQueryType "Query"
    |>.define (.interface { name := "Character", fields := [name] })
    |>.define (.object { name := "Human", fields := [name], interfaces := ["Character"] })
    |>.define (.object { name := "Droid", fields := [name], interfaces := ["Character"] })
    |>.define (.object
      { name := "Query", fields := [{ name := "hero", type := .named "Character" }] })

/-- A query that asks for the type of a human and for the name of a droid under one key. -/
def heroKind : Document where
  operations := [{
    name := "Hero"
    operationType := "query"
    selections := [.field "hero" none [
      .inline (some "Human") [.field "__typename" (some "kind") []],
      .inline (some "Droid") [.field "name" (some "kind") []]]] }]

/-- The selections that are made on the hero. -/
def heroSet : SelectionSet where
  parentType := "Character"
  possible := ["Human", "Droid"]
  selections := [
    .inline "Human" ["Human"]
      ⟨"Human", ["Human"], [.leaf { Field.typename with alias? := some "kind" }]⟩,
    .inline "Droid" ["Droid"]
      ⟨"Droid", ["Droid"], [.leaf {
        name := "name"
        alias? := some "kind"
        type := .nonNull (.named .scalar "String") }]⟩]

/-- The only variant of the hero, in which the kind is taken for the name of the type. -/
def heroVariant : Variant where
  possible := ["Human", "Droid"]
  fields := [{
    key := "kind"
    name := "__typename"
    type := .nonNull (.named .scalar "String")
    description? := none
    set? := none
    literals? := some ["Human", "Droid"] }]
  spreads := []

theorem variants_heroSet (merges : Bool) :
    ({ fragments := [], merges } : Collector).variants heroSet = .ok [heroVariant] := by
  cbv

theorem collect_heroSet_droid (merges : Bool) :
    ({ fragments := [], merges } : Collector).collect heroSet (some "Droid") = .ok {
      fields := [{
        key := "kind"
        name := "name"
        type := .nonNull (.named .scalar "String")
        description? := none
        set? := none }] } := by
  cbv

/-- **Narrowing may be unsound.**  The schema is valid and the document compiles, but for droids the
kind is the name of the droid. -/
theorem exists_not_narrowsSoundly :
    characters.validate = .ok () ∧
      ∃ c, compile characters heroKind {} = .ok c ∧
        (∃ o ∈ c.operations, ∃ f, .branch f heroSet ∈ o.set.selections) ∧
        ∀ merges : Bool, ∃ vs,
          ({ fragments := c.fragments, merges } : Collector).variants heroSet = .ok vs ∧
            ¬ ∀ v ∈ vs, v.NarrowsSoundly { fragments := c.fragments, merges } heroSet := by
  refine ⟨by cbv, _, by cbv, ?_, ?_⟩
  · simp [heroSet, Field.typename, typenameField, BuiltinScalar.name]
  · intro merges
    refine ⟨_, variants_heroSet merges, ?_⟩
    intro hsound
    obtain ⟨-, hnames⟩ := hsound heroVariant List.mem_cons_self _ List.mem_cons_self _ rfl
    obtain ⟨c, n, hc, hn, -, htype⟩ := hnames "Droid" (by decide)
    obtain rfl := Except.ok.inj ((collect_heroSet_droid merges).symm.trans hc)
    obtain rfl := List.mem_singleton.1 hn
    exact absurd htype (by decide)

/-- Here the condition fails, and so does narrowing. -/
theorem narrowsSoundly_iff_heroSet :
    (∀ v ∈ [heroVariant], ∀ m ∈ v.fields, ∀ names, m.literals? = some names →
      names = v.possible) ∧
    ((∀ v ∈ [heroVariant], v.NarrowsSoundly { fragments := [], merges := true } heroSet) ↔
      ∀ v ∈ [heroVariant], ¬ v.MistakesField { fragments := [], merges := true } heroSet) :=
  Collector.narrowsSoundly_iff (variants_heroSet true)

end ResponseTypes
