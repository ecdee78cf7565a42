import ResponseTypes.Proofs.Classes
import ResponseTypes.Proofs.Collection.Merged
import ResponseTypes.Selection.Variant

/-!
# Variants partition the object types

Object types are sorted in one after the other, and each is compared only with the first of every
variant there is.  Having one shape is an equivalence, so this is enough: the variants are the
classes of that equivalence, each with what was collected for its first object type.

## What is here

* `Collected.sameShape` — the equivalence; `Collected.sameShape_iff` says what it is about.
* `Collector.classes` — the variants, read off the whole list of object types;
  `Collector.placeAll_eq_classes` says that sorting one after the other ends there.
* `Collector.variants_partition` — the variants of a selection set whose value can have several
  object types.
-/

set_option autoImplicit false

namespace ResponseTypes

/-! ## One shape -/

namespace Collected

/-- Whether two object types for which this was collected belong in one variant. -/
def sameShape (c d : Collected) : Bool :=
  (c.fields.map MergedField.shape).isPerm (d.fields.map MergedField.shape) &&
    c.spreads.isPerm d.spreads

theorem sameShape_eq_true (c d : Collected) : c.sameShape d = true ↔
    (c.fields.map MergedField.shape).Perm (d.fields.map MergedField.shape) ∧
      c.spreads.Perm d.spreads := by
  rw [sameShape, Bool.and_eq_true, List.isPerm_iff, List.isPerm_iff]

theorem equivalence_sameShape : Equivalence fun c d : Collected => c.sameShape d = true := by
  simp only [sameShape_eq_true]
  refine ⟨?_, ?_, ?_⟩
  · exact fun c => ⟨.refl _, .refl _⟩
  · exact fun h => ⟨h.1.symm, h.2.symm⟩
  · exact fun h h' => ⟨h.1.trans h'.1, h.2.trans h'.2⟩

/-- What is collected has one field for each key, and so no shape comes up twice. -/
theorem Sums.nodup_shapes {c : Collected} {es : List Encounter} (h : c.Sums es) :
    (c.fields.map MergedField.shape).Nodup := by
  refine List.Nodup.of_map Prod.fst ?_
  rw [List.map_map]
  exact h.nodup_keys

/-- **One shape** is a matter of which fields there are, and which fragments are recorded. -/
theorem sameShape_iff {c d : Collected} {es fs : List Encounter} (h : c.Sums es) (h' : d.Sums fs) :
    c.sameShape d = true ↔
      (∀ t, t ∈ c.fields.map MergedField.shape ↔ t ∈ d.fields.map MergedField.shape) ∧
        ∀ s, s ∈ c.spreads ↔ s ∈ d.spreads := by
  rw [sameShape_eq_true, List.perm_ext_iff_of_nodup h.nodup_shapes h'.nodup_shapes,
    List.perm_ext_iff_of_nodup h.nodup_spreads h'.nodup_spreads]

end Collected

/-! ## Sorting in -/

namespace Variant

/-- Sorting in an object type where each variant stands for a class: it goes to the one of its
class, or becomes the first of a new one. -/
theorem place_map {α : Type} (possible : α → List String) (collected : α → Collected)
    (object : String) (d : Collected) (firsts : List α)
    (h : firsts.Pairwise fun a b => (collected a).sameShape (collected b) = false) :
    place object d (firsts.map fun a => ofCollected (possible a) (collected a))
      = if ∃ a ∈ firsts, (collected a).sameShape d = true then
          firsts.map fun a => ofCollected
            (if (collected a).sameShape d = true then possible a ++ [object] else possible a)
            (collected a)
        else (firsts.map fun a => ofCollected (possible a) (collected a)) ++
          [ofCollected [object] d] := by
  induction firsts with
  | nil => simp [place]
  | cons a firsts ih =>
    obtain ⟨ha, hrest⟩ := List.pairwise_cons.1 h
    have hshape : (ofCollected (possible a) (collected a)).hasShape d
        = (collected a).sameShape d := rfl
    rw [List.map_cons, place, hshape]
    by_cases had : (collected a).sameShape d = true
    · -- The others are of other classes, and stay as they are.
      have hothers : ∀ b ∈ firsts, ¬ (collected b).sameShape d = true := by
        intro b hb hbd
        have hab := Collected.equivalence_sameShape.trans had
          (Collected.equivalence_sameShape.symm hbd)
        simp [ha b hb] at hab
      rw [if_pos had, if_pos ⟨a, List.mem_cons_self, had⟩, List.map_cons, if_pos had]
      congr 1
      refine List.map_congr_left fun b hb => ?_
      rw [if_neg (hothers b hb)]
    · rw [if_neg had, ih hrest]
      by_cases hex : ∃ b ∈ firsts, (collected b).sameShape d = true
      · obtain ⟨b, hb, hbd⟩ := hex
        rw [if_pos ⟨b, hb, hbd⟩, if_pos ⟨b, List.mem_cons_of_mem _ hb, hbd⟩, List.map_cons,
          if_neg had]
      · have hcons : ¬ ∃ b ∈ a :: firsts, (collected b).sameShape d = true := by
          rintro ⟨b, hb, hbd⟩
          rcases List.mem_cons.1 hb with rfl | hb
          · exact had hbd
          · exact hex ⟨b, hb, hbd⟩
        rw [if_neg hex, if_neg hcons, List.cons_append]

/-- Sorting in adds one object type and loses none. -/
theorem perm_flatMap_place (object : String) (c : Collected) (vs : List Variant) :
    ((place object c vs).flatMap Variant.possible).Perm
      (vs.flatMap Variant.possible ++ [object]) := by
  induction vs with
  | nil => exact .refl _
  | cons v vs ih =>
    rw [place]
    split
    · rw [List.flatMap_cons, List.flatMap_cons, List.append_assoc, List.append_assoc]
      exact List.perm_append_comm.append_left v.possible
    · rw [List.flatMap_cons, List.flatMap_cons, List.append_assoc]
      exact ih.append_left v.possible

@[simp] theorem narrowed_possible (v : Variant) : v.narrowed.possible = v.possible := rfl

/-- The fields of a variant that has been narrowed. -/
theorem mem_narrowed_fields {v : Variant} {m : MergedField} :
    m ∈ v.narrowed.fields ↔ ∃ n ∈ v.fields,
      m = if n.isTypename = true then { n with literals? := some v.possible } else n := by
  rw [narrowed, List.mem_map]
  simp only [eq_comm]

/-- Narrowing changes nothing but the names a type name is among. -/
theorem map_narrowed_fields (v : Variant) (h : ∀ m ∈ v.fields, m.literals? = none) :
    (v.narrowed.fields.map fun m => { m with literals? := none }) = v.fields := by
  rw [narrowed, List.map_map]
  refine (List.map_congr_left fun m hm => ?_).trans (List.map_id _)
  have hm := h m hm
  cases m
  simp only at hm
  subst hm
  simp only [Function.comp_apply, id]
  split <;> rfl

end Variant

namespace Collector

/-! ## Sorting in all object types -/

/-- What is collected for an object type, or nothing if that fails. -/
def yield (x : Collector) (set : SelectionSet) (object : String) : Collected :=
  match x.collect set (some object) with
  | .ok c => c
  | .error _ => {}

theorem yield_eq {x : Collector} {set : SelectionSet} {object : String} {c : Collected}
    (h : x.collect set (some object) = .ok c) : x.yield set object = c := by
  rw [yield, h]

/-- Whether two object types have one shape. -/
def alike (x : Collector) (set : SelectionSet) (object other : String) : Bool :=
  (x.yield set object).sameShape (x.yield set other)

theorem equivalence_alike (x : Collector) (set : SelectionSet) :
    Equivalence fun object other => x.alike set object other = true := by
  refine ⟨?_, ?_, ?_⟩
  · exact fun _ => Collected.equivalence_sameShape.refl _
  · exact fun h => Collected.equivalence_sameShape.symm h
  · exact fun h h' => Collected.equivalence_sameShape.trans h h'

/-- The variants of some object types: one for each shape, with what the first object type of that
shape yields. -/
def classes (x : Collector) (set : SelectionSet) (objects : List String) : List Variant :=
  (firsts (x.alike set) objects).map fun object =>
    .ofCollected (objects.filter (x.alike set object)) (x.yield set object)

/-- **Sorting in one more object type.** -/
theorem place_classes (x : Collector) (set : SelectionSet) (objects : List String)
    (object : String) :
    Variant.place object (x.yield set object) (x.classes set objects)
      = x.classes set (objects ++ [object]) := by
  rw [classes, Variant.place_map _ (x.yield set) _ _ _ (pairwise_not_same_firsts (x.alike set) _),
    classes, firsts_concat]
  have hiff : (∃ a ∈ firsts (x.alike set) objects, (x.yield set a).sameShape (x.yield set object)
      = true) ↔ ∃ a ∈ objects, x.alike set a object = true := by
    constructor
    · rintro ⟨a, ha, hsame⟩
      exact ⟨a, (firsts_sublist _ _).subset ha, hsame⟩
    · rintro ⟨a, ha, hsame⟩
      obtain ⟨b, hb, hba⟩ := exists_firsts_of_mem (x.equivalence_alike set) ha
      exact ⟨b, hb, (x.equivalence_alike set).trans hba hsame⟩
  have hfilter : ∀ a, (objects ++ [object]).filter (x.alike set a)
      = if (x.yield set a).sameShape (x.yield set object) = true then
          objects.filter (x.alike set a) ++ [object]
        else objects.filter (x.alike set a) := by
    intro a
    rw [List.filter_append]
    change _ = if x.alike set a object = true then _ else _
    by_cases ha : x.alike set a object = true
    · rw [if_pos ha, List.filter_cons_of_pos ha, List.filter_nil]
    · rw [if_neg ha, List.filter_cons_of_neg ha, List.filter_nil, List.append_nil]
  by_cases hex : ∃ a ∈ objects, x.alike set a object = true
  · rw [if_pos (hiff.2 hex), if_pos hex]
    refine List.map_congr_left fun a _ => ?_
    rw [hfilter]
  · rw [if_neg fun h => hex (hiff.1 h), if_neg hex, List.map_append]
    congr 1
    · refine List.map_congr_left fun a ha => ?_
      rw [hfilter, if_neg]
      exact fun hsame => hex ⟨a, (firsts_sublist _ _).subset ha, hsame⟩
    · have hnone : objects.filter (x.alike set object) = [] := by
        rw [List.filter_eq_nil_iff]
        intro a ha hsame
        exact hex ⟨a, ha, (x.equivalence_alike set).symm hsame⟩
      have hself : (x.yield set object).sameShape (x.yield set object) = true :=
        (x.equivalence_alike set).refl object
      rw [List.map_singleton, hfilter, if_pos hself, hnone, List.nil_append]

/-- Sorting in succeeds if something is collected for each object type. -/
theorem exists_placeAll_eq_ok_iff (x : Collector) (set : SelectionSet) (objects : List String)
    (vs : List Variant) : (∃ ws, x.placeAll set objects vs = .ok ws) ↔
      ∀ object ∈ objects, ∃ c, x.collect set (some object) = .ok c := by
  induction objects generalizing vs with
  | nil => simp [placeAll]
  | cons object objects ih =>
    rw [placeAll, List.forall_mem_cons]
    cases x.collect set (some object) with
    | error e => simp [bind, Except.bind]
    | ok c => simpa [bind, Except.bind] using ih (Variant.place object c vs)

/-- **Sorting in one after the other** ends with the classes. -/
theorem placeAll_eq_classes (x : Collector) (set : SelectionSet) {objects : List String}
    (h : ∀ object ∈ objects, ∃ c, x.collect set (some object) = .ok c) (before : List String) :
    x.placeAll set objects (x.classes set before) = .ok (x.classes set (before ++ objects)) := by
  induction objects generalizing before with
  | nil => rw [placeAll, List.append_nil]
  | cons object objects ih =>
    obtain ⟨⟨c, hc⟩, hrest⟩ := List.forall_mem_cons.1 h
    have hplace := x.place_classes set before object
    rw [yield_eq hc] at hplace
    rw [placeAll, hc]
    change x.placeAll set objects (Variant.place object c (x.classes set before)) = _
    rw [hplace, ih hrest, List.append_assoc, List.singleton_append]

/-- No object type is lost or counted twice. -/
theorem perm_flatMap_classes (x : Collector) (set : SelectionSet) (objects : List String) :
    ((x.classes set objects).flatMap Variant.possible).Perm objects := by
  induction objects using List.reverseRecOn with
  | nil => exact .refl _
  | append_singleton objects object ih =>
    rw [← place_classes]
    exact (Variant.perm_flatMap_place _ _ _).trans (ih.append_right [object])

/-! ## The variants of a selection set -/

/-- On a value that can have several object types, the variants exist if something is collected for
each of the types, and then they are the classes. -/
theorem exists_variants_eq_ok_iff (x : Collector) (set : SelectionSet)
    (hpolymorphic : set.isPolymorphic = true) (hpossible : set.possible ≠ []) :
    (∃ vs, x.variants set = .ok vs) ↔
      ∀ object ∈ set.possible, ∃ c, x.collect set (some object) = .ok c := by
  have hempty : set.possible.isEmpty = false := by simpa using hpossible
  rw [← exists_placeAll_eq_ok_iff x set set.possible [], variants, if_neg (by simp [hempty]),
    if_pos hpolymorphic]
  constructor
  · rintro ⟨vs, h⟩
    obtain ⟨ws, hws, -⟩ := bind_eq_ok_iff.1 h
    exact ⟨ws, hws⟩
  · rintro ⟨ws, hws⟩
    exact ⟨_, bind_eq_ok_iff.2 ⟨ws, hws, rfl⟩⟩

theorem variants_eq_classes {x : Collector} {set : SelectionSet} {vs : List Variant}
    (hpolymorphic : set.isPolymorphic = true) (hpossible : set.possible ≠ [])
    (h : x.variants set = .ok vs) :
    vs = (x.classes set set.possible).map Variant.narrowed := by
  have hempty : set.possible.isEmpty = false := by simpa using hpossible
  have hall := (x.exists_variants_eq_ok_iff set hpolymorphic hpossible).1 ⟨vs, h⟩
  have hplace := x.placeAll_eq_classes set hall []
  rw [variants, if_neg (by simp [hempty]), if_pos hpolymorphic] at h
  change x.placeAll set set.possible [] = _ at hplace
  rw [hplace] at h
  exact (Except.ok.inj h).symm

theorem mem_classes {x : Collector} {set : SelectionSet} {objects : List String} {v : Variant} :
    v ∈ x.classes set objects ↔ ∃ object ∈ firsts (x.alike set) objects,
      v = .ofCollected (objects.filter (x.alike set object)) (x.yield set object) := by
  rw [classes, List.mem_map]
  simp only [eq_comm]

/-- On a value whose object type is the declared one, or of which none is known, nothing is
narrowed. -/
theorem exists_variants_eq_singleton {x : Collector} {set : SelectionSet} {vs : List Variant}
    (hplain : set.possible = [] ∨ set.isPolymorphic = false) (h : x.variants set = .ok vs) :
    ∃ object? c, x.collect set object? = .ok c ∧ vs = [.ofCollected set.possible c] := by
  by_cases hempty : set.possible = []
  · rw [variants, if_pos (by simp [hempty])] at h
    obtain ⟨c, hc, h⟩ := bind_eq_ok_iff.1 h
    cases h
    exact ⟨none, c, hc, rfl⟩
  · have hpolymorphic : ¬ set.isPolymorphic = true := by
      simpa using hplain.resolve_left hempty
    rw [variants, if_neg (by simpa using hempty), if_neg hpolymorphic] at h
    obtain ⟨c, hc, h⟩ := bind_eq_ok_iff.1 h
    cases h
    exact ⟨some set.parentType, c, hc, rfl⟩

/-- On a value that can have several object types, each variant holds what is collected for one of
them, and its type name is narrowed. -/
theorem exists_narrowed_of_mem_variants {x : Collector} {set : SelectionSet} {vs : List Variant}
    (hpolymorphic : set.isPolymorphic = true) (hpossible : set.possible ≠ [])
    (h : x.variants set = .ok vs) {v : Variant} (hv : v ∈ vs) :
    ∃ possible, ∃ object ∈ set.possible, ∃ c, x.collect set (some object) = .ok c ∧
      v = (Variant.ofCollected possible c).narrowed := by
  have hall := (x.exists_variants_eq_ok_iff set hpolymorphic hpossible).1 ⟨vs, h⟩
  rw [variants_eq_classes hpolymorphic hpossible h] at hv
  obtain ⟨w, hw, rfl⟩ := List.mem_map.1 hv
  obtain ⟨object, hobject, rfl⟩ := mem_classes.1 hw
  have hmem := (firsts_sublist _ _).subset hobject
  obtain ⟨c, hc⟩ := hall object hmem
  rw [yield_eq hc]
  exact ⟨_, object, hmem, c, hc, rfl⟩

/-- Each variant holds what is collected for some object type, or for an unknown one; its type name
may be narrowed. -/
theorem exists_collect_of_mem_variants {x : Collector} {set : SelectionSet} {vs : List Variant}
    (h : x.variants set = .ok vs) {v : Variant} (hv : v ∈ vs) :
    ∃ possible object? c, x.collect set object? = .ok c ∧
      (v = .ofCollected possible c ∨ v = (Variant.ofCollected possible c).narrowed) := by
  by_cases hplain : set.possible = [] ∨ set.isPolymorphic = false
  · obtain ⟨object?, c, hc, rfl⟩ := exists_variants_eq_singleton hplain h
    exact ⟨_, object?, c, hc, .inl (List.mem_singleton.1 hv)⟩
  · obtain ⟨hpossible, hpolymorphic⟩ := not_or.1 hplain
    have hpolymorphic : set.isPolymorphic = true := by simpa using hpolymorphic
    obtain ⟨possible, object, -, c, hc, heq⟩ :=
      exists_narrowed_of_mem_variants hpolymorphic hpossible h hv
    exact ⟨possible, some object, c, hc, .inr heq⟩

/-- The variants of a selection set sort its object types by what is collected for them. -/
structure Partitions (x : Collector) (set : SelectionSet) (vs : List Variant) : Prop where
  /-- No object type is lost, and none is counted more often than it is listed. -/
  perm : (vs.flatMap Variant.possible).Perm set.possible
  /-- The object types of a variant are listed as those of the selection set are. -/
  listed : ∀ v ∈ vs, v.possible = set.possible.filter fun object => v.possible.contains object
  /-- The variants are listed as their first object types are. -/
  ordered : vs.Pairwise fun v w => ∀ object ∈ v.possible.head?, ∀ other ∈ w.possible.head?,
    set.possible.idxOf object < set.possible.idxOf other
  /-- Two object types are in one variant when the same fields and fragments are collected. -/
  together : ∀ object ∈ set.possible, ∀ other ∈ set.possible, ∀ c d,
    x.collect set (some object) = .ok c → x.collect set (some other) = .ok d →
      ((∃ v ∈ vs, object ∈ v.possible ∧ other ∈ v.possible) ↔
        (∀ t, t ∈ c.fields.map MergedField.shape ↔ t ∈ d.fields.map MergedField.shape) ∧
          ∀ s, s ∈ c.spreads ↔ s ∈ d.spreads)
  /-- A variant has the fields and the fragments that are collected for its first object type. -/
  first : ∀ v ∈ vs, ∃ object c, v.possible.head? = some object ∧
    x.collect set (some object) = .ok c ∧
      (v.fields.map fun m => { m with literals? := none }) = c.fields ∧ v.spreads = c.spreads

theorem partitions_classes {x : Collector} {set : SelectionSet}
    (h : ∀ object ∈ set.possible, ∃ c, x.collect set (some object) = .ok c) :
    x.Partitions set ((x.classes set set.possible).map Variant.narrowed) where
  perm := by
    rw [List.flatMap_map]
    exact x.perm_flatMap_classes set set.possible
  listed := by
    intro v hv
    obtain ⟨w, hw, rfl⟩ := List.mem_map.1 hv
    obtain ⟨object, -, rfl⟩ := mem_classes.1 hw
    refine List.filter_congr fun other hother => ?_
    simp [Variant.ofCollected, hother]
  ordered := by
    have hhead : ∀ object ∈ firsts (x.alike set) set.possible,
        (set.possible.filter (x.alike set object)).head? = some object :=
      fun object hobject => head?_filter_of_mem_firsts (x.equivalence_alike set) hobject
    rw [List.pairwise_map, classes, List.pairwise_map]
    refine (pairwise_idxOf_firsts (x.equivalence_alike set) set.possible).imp_of_mem ?_
    intro object other hobject hother hlt a ha b hb
    rw [Variant.narrowed_possible, Variant.ofCollected, hhead object hobject] at ha
    rw [Variant.narrowed_possible, Variant.ofCollected, hhead other hother] at hb
    cases ha
    cases hb
    exact hlt
  together := by
    have hequiv := x.equivalence_alike set
    intro object hobject other hother c d hc hd
    rw [← Collected.sameShape_iff (sums_of_collect hc) (sums_of_collect hd), ← yield_eq hc,
      ← yield_eq hd]
    constructor
    · rintro ⟨v, hv, hov, hpv⟩
      obtain ⟨w, hw, rfl⟩ := List.mem_map.1 hv
      obtain ⟨a, -, rfl⟩ := mem_classes.1 hw
      exact hequiv.trans (hequiv.symm (List.mem_filter.1 hov).2) (List.mem_filter.1 hpv).2
    · intro hsame
      obtain ⟨a, ha, hao⟩ := exists_firsts_of_mem hequiv hobject
      refine ⟨_, List.mem_map_of_mem (mem_classes.2 ⟨a, ha, rfl⟩), ?_, ?_⟩
      · exact List.mem_filter.2 ⟨hobject, hao⟩
      · exact List.mem_filter.2 ⟨hother, hequiv.trans hao hsame⟩
  first := by
    intro v hv
    obtain ⟨w, hw, rfl⟩ := List.mem_map.1 hv
    obtain ⟨object, hobject, rfl⟩ := mem_classes.1 hw
    obtain ⟨c, hc⟩ := h object ((firsts_sublist _ _).subset hobject)
    refine ⟨object, c, head?_filter_of_mem_firsts (x.equivalence_alike set) hobject, hc, ?_, ?_⟩
    · rw [yield_eq hc, Variant.map_narrowed_fields]
      · rfl
      · exact (sums_of_collect hc).literals?_eq_none
    · rw [yield_eq hc]
      rfl

/-- **Variants partition the object types**: on a value that can have several object types, the
variants exist if and only if something is collected for each of them, and they sort the types by
that. -/
theorem variants_partition (x : Collector) (set : SelectionSet)
    (hpolymorphic : set.isPolymorphic = true) (hpossible : set.possible ≠ []) :
    ((∃ vs, x.variants set = .ok vs) ↔
      ∀ object ∈ set.possible, ∃ c, x.collect set (some object) = .ok c) ∧
    ∀ vs, x.variants set = .ok vs → x.Partitions set vs := by
  refine ⟨x.exists_variants_eq_ok_iff set hpolymorphic hpossible, ?_⟩
  intro vs hvs
  rw [variants_eq_classes hpolymorphic hpossible hvs]
  exact partitions_classes
    ((x.exists_variants_eq_ok_iff set hpolymorphic hpossible).1 ⟨vs, hvs⟩)

/-- Pets of three kinds, all of which have a name and one of which has tricks. -/
def pets : SelectionSet where
  parentType := "Pet"
  possible := ["Cat", "Dog", "Fish"]
  selections := [
    .leaf { name := "name", type := .named .scalar "String" },
    .inline "Dog" ["Dog"]
      ⟨"Dog", ["Dog"], [.leaf { name := "tricks", type := .named .scalar "Int" }]⟩]

theorem variants_partition_pets :
    pets.isPolymorphic = true ∧ pets.possible ≠ [] ∧
      ∃ vs, ({ fragments := [], merges := true } : Collector).variants pets = .ok vs ∧
        vs.map Variant.possible = [["Cat", "Fish"], ["Dog"]] ∧
        Partitions { fragments := [], merges := true } pets vs := by
  have hvariants : ∃ vs, ({ fragments := [], merges := true } : Collector).variants pets = .ok vs ∧
      vs.map Variant.possible = [["Cat", "Fish"], ["Dog"]] := ⟨_, by cbv, rfl⟩
  obtain ⟨vs, hvs, hpossible⟩ := hvariants
  refine ⟨by decide, by decide, vs, hvs, hpossible, ?_⟩
  exact (variants_partition _ pets (by decide) (by decide)).2 vs hvs

end Collector
end ResponseTypes
