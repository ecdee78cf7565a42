import ResponseTypes.Proofs.Variant.Reaching

/-!
# Variants that are told apart by the name of the type

Where a selection set asks for the name of the type under its own key, and no other field has that
key, every variant has a field of the key, which is narrowed to the object types of the variant.  No
object type is in two variants.  So whoever reads a response can tell from the name of the type
which of the variants it has.

The selections on the values of fields are put together from those made on several fields.  If all
of them ask for the name of the type, so does what is put together.

## What is here

* `SelectionSet.AsksTypename`, `Field.KeepsTypename`, and `Collector.Reaches.asksTypename` — what
  goes on to the selection sets below.
* `Collector.exists_typename_of_variants`, `Collector.literals?_of_variants` — the name of the type
  in a variant; `Collector.disjoint_of_variants`, `Collector.mem_possible_iff_of_variants` — the
  object types of variants.
-/

set_option autoImplicit false

namespace ResponseTypes

/-- A selection set asks for the name of the type beside the fields, under its own key. -/
def SelectionSet.AsksTypename (set : SelectionSet) : Prop :=
  ∃ f, .leaf f ∈ set.selections ∧ f.key = typenameField

/-- The key of the type name is kept for it, and the selections on the value of a field ask for it.
-/
structure Field.KeepsTypename (f : Field) (set? : Option SelectionSet) : Prop where
  reserved : f.key = typenameField → f.isTypename = true
  asked : ∀ set ∈ set?, set.AsksTypename

namespace Collector

variable {x : Collector} {set : SelectionSet}

/-! ## What is collected -/

/-- The name of the type is asked for below, too. -/
theorem Reaches.asksTypename {below : SelectionSet} (h : x.Reaches set below)
    (hasks : set.AsksTypename) (hset : set.All Field.KeepsTypename)
    (hfragments : ∀ g ∈ x.fragments, g.set.All Field.KeepsTypename) : below.AsksTypename := by
  cases h with
  | refl => exact hasks
  | field habove _ hc hm hmset =>
    have habove := SelectionSet.all_iff.1 (habove.all hset hfragments)
    obtain ⟨first, rest, rfl, hyields⟩ := exists_parts_of_mem hc hm hmset
    obtain ⟨f, hf⟩ := hyields first List.mem_cons_self
    obtain ⟨g, hg, hkey⟩ := (hf.all habove hfragments).1.asked first rfl
    exact ⟨g, List.mem_flatMap.2 ⟨first, List.mem_cons_self, hg⟩, hkey⟩

variable {object? : Option String} {c : Collected}

theorem exists_typename_of_collect (hasks : set.AsksTypename)
    (hc : x.collect set object? = .ok c) : ∃ m ∈ c.fields, m.key = typenameField := by
  obtain ⟨f, hf, hkey⟩ := hasks
  obtain ⟨m, hm, hmkey, -⟩ :=
    (exists_mem_fields_iff hc).2 ⟨f, none, .leaf hf, rfl, rfl⟩
  exact ⟨m, hm, hmkey.trans hkey⟩

theorem isTypename_of_collect (hset : set.All Field.KeepsTypename)
    (hfragments : ∀ g ∈ x.fragments, g.set.All Field.KeepsTypename)
    (hc : x.collect set object? = .ok c) :
    ∀ m ∈ c.fields, m.key = typenameField → m.isTypename = true := by
  intro m hm hkey
  obtain ⟨f, es, ⟨p, set?, hmem⟩, rfl, hes⟩ := exists_fields_of_mem hset hfragments hc hm
  obtain ⟨q, g, set?', heq, -, hg, -⟩ := hes _ hmem
  cases heq
  exact hg.reserved hkey

/-! ## The variants of a value that can have several object types -/

section Variants

variable {vs : List Variant} (hpolymorphic : set.isPolymorphic = true)
  (hpossible : set.possible ≠ []) (h : x.variants set = .ok vs)

include hpolymorphic hpossible h

/-- Every variant has a field with the key of the type name. -/
theorem exists_typename_of_variants (hasks : set.AsksTypename) :
    ∀ v ∈ vs, ∃ m ∈ v.fields, m.key = typenameField := by
  intro v hv
  obtain ⟨possible, object, -, c, hc, rfl⟩ :=
    exists_narrowed_of_mem_variants hpolymorphic hpossible h hv
  obtain ⟨m, hm, hkey⟩ := exists_typename_of_collect hasks hc
  exact ⟨_, Variant.mem_narrowed_fields.2 ⟨m, hm, rfl⟩, (key_narrowed m _).trans hkey⟩

/-- **The name of the type is narrowed** to the object types of the variant. -/
theorem literals?_of_variants (hset : set.All Field.KeepsTypename)
    (hfragments : ∀ g ∈ x.fragments, g.set.All Field.KeepsTypename) :
    ∀ v ∈ vs, ∀ m ∈ v.fields, m.key = typenameField → m.literals? = some v.possible := by
  intro v hv m hm hkey
  obtain ⟨possible, object, -, c, hc, rfl⟩ :=
    exists_narrowed_of_mem_variants hpolymorphic hpossible h hv
  obtain ⟨n, hn, rfl⟩ := Variant.mem_narrowed_fields.1 hm
  rw [key_narrowed] at hkey
  rw [if_pos (isTypename_of_collect hset hfragments hc n hn hkey)]
  rfl

/-- No object type is in two variants. -/
theorem disjoint_of_variants : vs.Pairwise fun v w => v.possible.Disjoint w.possible := by
  have hequiv := x.equivalence_alike set
  rw [variants_eq_classes hpolymorphic hpossible h, List.pairwise_map, classes, List.pairwise_map]
  refine (pairwise_not_same_firsts (x.alike set) set.possible).imp ?_
  intro first second hne object hfirst hsecond
  have hsame := hequiv.trans (List.mem_filter.1 hfirst).2
    (hequiv.symm (List.mem_filter.1 hsecond).2)
  rw [hne] at hsame
  cases hsame

/-- The object types of the variants are those of the selection set. -/
theorem mem_possible_iff_of_variants {object : String} :
    (∃ v ∈ vs, object ∈ v.possible) ↔ object ∈ set.possible := by
  rw [variants_eq_classes hpolymorphic hpossible h, ← (x.perm_flatMap_classes set _).mem_iff,
    List.mem_flatMap]
  simp

end Variants
end Collector
end ResponseTypes
