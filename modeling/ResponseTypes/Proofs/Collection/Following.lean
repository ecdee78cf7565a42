import Mathlib.Logic.Relation
import ResponseTypes.Proofs.Collection.Conflicts
import ResponseTypes.Proofs.Compilation.Conforming

/-!
# Merging fragments and referring to them

A use of a fragment is merged or recorded by name.  Whoever reads what was recorded finds the rest
of the fields in the fragment, collected there in the same way, and further on in the fragments that
this one refers to.  Fragments may come back to each other, so what is found is everything on the
way from reference to reference; merging finds the same.

## What is here

* `Collector.Cites` — the uses of fragments that apply, with `Collector.mem_spreads_iff`.
* `Collector.Leads` — from selections to the fragments they use; `Collector.yields_merging_iff`.
* `FragmentRegistry.Refers` and `FragmentRegistry.Combines` — the same for what is recorded.
* `Compilation.collect_merging_spec` — what merging collects, told by what is recorded.
-/

set_option autoImplicit false

namespace ResponseTypes
namespace Collector

/-- The collector that merges fragments. -/
def merging (r : FragmentRegistry) : Collector where
  fragments := r
  merges := true

/-- The collector that records fragments by name. -/
def recording (r : FragmentRegistry) : Collector where
  fragments := r
  merges := false

variable {r : FragmentRegistry} {object? : Option String}

/-! ## Uses that apply -/

/-- A list of selections uses a fragment for an object type, perhaps inside fragments that are
written in place; all of them apply. -/
inductive Cites (object? : Option String) : List Selection → String → Prop where
  | spread {l : List Selection} {name condition : String} {possible : List String}
    (hmem : .spread name condition possible ∈ l) (happlies : applies possible object? = true) :
    Cites object? l name
  | inline {l : List Selection} {condition : String} {possible : List String}
    {set : SelectionSet} {name : String} (hmem : .inline condition possible set ∈ l)
    (happlies : applies possible object? = true) (h : Cites object? set.selections name) :
    Cites object? l name

/-- What is come across is come across in one of the selections. -/
theorem exists_singleton_of_mem_walk {x : Collector} {opened : List String} {todo : List Placed}
    {e : Encounter} (h : e ∈ x.walk object? opened todo) :
    ∃ t ∈ todo, e ∈ x.walk object? opened [t] := by
  induction todo with
  | nil => simp [walk] at h
  | cons t todo ih =>
    rw [← List.singleton_append, walk_append, List.mem_append] at h
    rcases h with h | h
    · exact ⟨t, List.mem_cons_self, h⟩
    · obtain ⟨u, hu, h⟩ := ih h
      exact ⟨u, List.mem_cons_of_mem _ hu, h⟩

/-- What is recorded applies. -/
theorem cites_of_mem_walk (set : SelectionSet) {opened : List String} {p q : Place} {name : String}
    (h : .recorded q name ∈ (recording r).walk object? opened (Placed.within p set)) :
    Cites object? set.selections name := by
  obtain ⟨⟨o, s⟩, ht, h⟩ := exists_singleton_of_mem_walk h
  have hs : s ∈ set.selections := by
    rw [← Placed.map_selection_within p set]
    exact List.mem_map_of_mem ht
  have hlt := SelectionSet.sizeOf_lt_of_mem hs
  cases s with
  | leaf f => simp [walk] at h
  | branch f below => simp [walk] at h
  | inline condition possible below =>
    rw [walk, walk, List.append_nil] at h
    split at h
    · rename_i happlies
      exact .inline hs happlies (cites_of_mem_walk below h)
    · cases h
  | spread other condition possible =>
    by_cases happlies : applies possible object? = true
    · obtain ⟨-, rfl⟩ : q = o ∧ name = other := by
        simpa [walk, happlies, recording] using h
      exact .spread hs happlies
    · simp [walk, happlies] at h
termination_by sizeOf set
decreasing_by
  simp only [Selection.inline.sizeOf_spec] at hlt
  omega

/-- What applies is recorded. -/
theorem exists_recorded_of_cites {l : List Selection} {name : String} (h : Cites object? l name)
    {opened : List String} {todo : List Placed} (htodo : todo.map Placed.selection = l) :
    ∃ p, .recorded p name ∈ (recording r).walk object? opened todo := by
  induction h generalizing todo with
  | spread hmem happlies =>
    rw [← htodo] at hmem
    obtain ⟨⟨p, s⟩, ht, rfl⟩ := List.mem_map.1 hmem
    exact ⟨p, walk_singleton_subset ht (by simp [walk, happlies, recording])⟩
  | @inline l condition possible set name hmem happlies _ ih =>
    rw [← htodo] at hmem
    obtain ⟨⟨p, s⟩, ht, rfl⟩ := List.mem_map.1 hmem
    obtain ⟨q, hq⟩ := ih (Placed.map_selection_within p set)
    refine ⟨q, walk_singleton_subset ht ?_⟩
    rw [walk, if_pos happlies]
    exact List.mem_append_left _ hq

/-- **What collecting records** are the fragments whose uses apply. -/
theorem mem_spreads_iff {set : SelectionSet} {c : Collected}
    (hc : (recording r).collect set object? = .ok c) {name : String} :
    name ∈ c.spreads ↔ Cites object? set.selections name := by
  rw [(sums_of_collect hc).spreads, List.mem_eraseDups, List.mem_filterMap]
  constructor
  · rintro ⟨e, he, hname⟩
    cases e with
    | recorded p other =>
      obtain rfl : other = name := Option.some.inj hname
      exact cites_of_mem_walk set he
    | field p f set? => cases hname
    | missing p other => cases hname
  · intro h
    obtain ⟨p, hp⟩ := exists_recorded_of_cites h (Placed.map_selection_within ⟨none, []⟩ set)
    exact ⟨_, hp, rfl⟩

/-! ## From fragment to fragment -/

/-- The fields that are reached from a list of selections through one use of a fragment that
applies. -/
theorem Yields.of_cites {l : List Selection} {name : String} (h : Cites object? l name)
    {f : Fragment} (hget : r.get? name = some f) {g : Field} {set? : Option SelectionSet}
    (hyields : (merging r).Yields object? f.set.selections g set?) :
    (merging r).Yields object? l g set? := by
  induction h with
  | spread hmem happlies => exact .spread hmem happlies rfl hget hyields
  | inline hmem happlies _ ih => exact .inline hmem happlies (ih hget)

/-- What is reached without opening fragments is reached if they are opened. -/
theorem Yields.merging {l : List Selection} {f : Field} {set? : Option SelectionSet}
    (h : (recording r).Yields object? l f set?) : (merging r).Yields object? l f set? := by
  induction h with
  | leaf hmem => exact .leaf hmem
  | branch hmem => exact .branch hmem
  | inline hmem happlies _ ih => exact .inline hmem happlies ih
  | spread _ _ hmerges => cases hmerges

end Collector

/-- A list of selections leads to those of a fragment that it uses for an object type. -/
def FragmentRegistry.LeadsTo (r : FragmentRegistry) (object? : Option String)
    (l l' : List Selection) : Prop :=
  ∃ name f, Collector.Cites object? l name ∧ r.get? name = some f ∧ l' = f.set.selections

namespace Collector

variable {r : FragmentRegistry} {object? : Option String}

/-- **What merging reaches** is reached without opening a fragment, in the selections themselves or
in those of a fragment that they lead to. -/
theorem yields_merging_iff {l : List Selection} {f : Field} {set? : Option SelectionSet} :
    (merging r).Yields object? l f set? ↔
      ∃ l', Relation.ReflTransGen (r.LeadsTo object?) l l' ∧
        (recording r).Yields object? l' f set? := by
  constructor
  · intro h
    induction h with
    | leaf hmem => exact ⟨_, .refl, .leaf hmem⟩
    | branch hmem => exact ⟨_, .refl, .branch hmem⟩
    | inline hmem happlies _ ih =>
      -- A fragment that is cited inside is cited from outside, too.
      obtain ⟨l', hpath, hyields⟩ := ih
      rcases hpath.cases_head with rfl | ⟨l₁, ⟨name, g, hcites, hget, rfl⟩, hpath⟩
      · exact ⟨_, .refl, .inline hmem happlies hyields⟩
      · exact ⟨l', .head ⟨name, g, .inline hmem happlies hcites, hget, rfl⟩ hpath, hyields⟩
    | spread hmem happlies _ hget _ ih =>
      obtain ⟨l', hpath, hyields⟩ := ih
      exact ⟨l', .head ⟨_, _, .spread hmem happlies, hget, rfl⟩ hpath, hyields⟩
  · rintro ⟨l', hpath, hyields⟩
    induction hpath using Relation.ReflTransGen.head_induction_on with
    | refl => exact hyields.merging
    | head hstep _ ih =>
      obtain ⟨name, g, hcites, hget, rfl⟩ := hstep
      exact .of_cites hcites hget ih

end Collector

/-! ## From what is recorded to what is recorded -/

namespace FragmentRegistry

open Collector (merging recording)

/-- A selection set refers to that of a fragment, which is recorded when fields are collected from
it for an object type. -/
def Refers (r : FragmentRegistry) (object? : Option String) (above below : SelectionSet) : Prop :=
  ∃ c name f, (recording r).collect above object? = .ok c ∧ name ∈ c.spreads ∧
    r.get? name = some f ∧ below = f.set

/-- A selection set is that of a fragment which is found by following references, or the one where
that starts. -/
def Finds (r : FragmentRegistry) (object? : Option String) (set member : SelectionSet) : Prop :=
  Relation.ReflTransGen (r.Refers object?) set member

/-- All that is found by following references can be collected, and fields of one key have one
type there. -/
structure Combines (r : FragmentRegistry) (object? : Option String) (set : SelectionSet) :
    Prop where
  collected : ∀ member, r.Finds object? set member →
    ∃ c, (recording r).collect member object? = .ok c
  agree : ∀ member other, r.Finds object? set member → r.Finds object? set other →
    ∀ c d, (recording r).collect member object? = .ok c →
      (recording r).collect other object? = .ok d →
        ∀ m ∈ c.fields, ∀ n ∈ d.fields, m.key = n.key → m.type = n.type

variable {r : FragmentRegistry} {object? : Option String} {set member : SelectionSet}

theorem Finds.path (h : r.Finds object? set member) :
    Relation.ReflTransGen (r.LeadsTo object?) set.selections member.selections := by
  refine h.lift SelectionSet.selections ?_
  rintro above below ⟨c, name, f, hc, hname, hget, rfl⟩
  exact ⟨name, f, (Collector.mem_spreads_iff hc).1 hname, hget, rfl⟩

/-- Where all that is found can be collected, nothing is missed. -/
theorem exists_finds_of_path
    (hcollected : ∀ member, r.Finds object? set member →
      ∃ c, (recording r).collect member object? = .ok c) {l : List Selection}
    (h : Relation.ReflTransGen (r.LeadsTo object?) set.selections l) :
    ∃ member, r.Finds object? set member ∧ member.selections = l := by
  induction h with
  | refl => exact ⟨set, .refl, rfl⟩
  | tail _ hstep ih =>
    obtain ⟨above, hfinds, rfl⟩ := ih
    obtain ⟨name, f, hcites, hget, rfl⟩ := hstep
    obtain ⟨c, hc⟩ := hcollected above hfinds
    have hname := (Collector.mem_spreads_iff hc).2 hcites
    exact ⟨f.set, hfinds.tail ⟨c, name, f, hc, hname, hget, rfl⟩, rfl⟩

theorem Finds.yields (h : r.Finds object? set member) {f : Field} {set? : Option SelectionSet}
    (hyields : (recording r).Yields object? member.selections f set?) :
    (merging r).Yields object? set.selections f set? :=
  Collector.yields_merging_iff.2 ⟨_, h.path, hyields⟩

/-- What merging reaches is found. -/
theorem Combines.exists_finds (h : r.Combines object? set) {f : Field}
    {set? : Option SelectionSet} (hyields : (merging r).Yields object? set.selections f set?) :
    ∃ member c, r.Finds object? set member ∧ (recording r).collect member object? = .ok c ∧
      ∃ m ∈ c.fields, m.key = f.key ∧ m.type = f.type := by
  obtain ⟨l, hpath, hyields⟩ := Collector.yields_merging_iff.1 hyields
  obtain ⟨member, hfinds, rfl⟩ := exists_finds_of_path h.collected hpath
  obtain ⟨c, hc⟩ := h.collected member hfinds
  exact ⟨member, c, hfinds, hc,
    (Collector.exists_mem_fields_iff hc).2 ⟨f, set?, hyields, rfl, rfl⟩⟩

/-- The fragments that are found are registered, and so are those that they use. -/
theorem Finds.holds (h : r.Finds object? set member) (hset : r.Holds set.selections)
    (hfragments : ∀ f ∈ r, r.Holds f.set.selections) : r.Holds member.selections := by
  rcases h.cases_tail with rfl | ⟨above, -, c, name, f, -, -, hget, rfl⟩
  · exact hset
  · exact hfragments f (mem_of_get? hget)

/-- If merging succeeds, what is found can be combined. -/
theorem combines_of_collect (hset : r.Holds set.selections)
    (hfragments : ∀ f ∈ r, r.Holds f.set.selections) {d : Collected}
    (hd : (merging r).collect set object? = .ok d) : r.Combines object? set where
  collected := by
    intro member hfinds
    cases hc : (recording r).collect member object? with
    | ok c => exact ⟨c, rfl⟩
    | error err =>
      obtain ⟨key, first, second, hconflict, -⟩ := Collector.conflictsAt_of_collect_eq_error
        (x := recording r) (hfinds.holds hset hfragments) hfragments hc
      obtain ⟨f, g, set?, set?', hf, hg, hkeys⟩ := hconflict
      exact absurd ⟨f, g, set?, set?', hfinds.yields hf, hfinds.yields hg, hkeys⟩
        (Collector.not_conflictsAt_of_collect_eq_ok hd key first second)
  agree := by
    intro member other hmember hother c e hc he m hm n hn hkey
    obtain ⟨f, set?, hf, hfkey, hftype⟩ :=
      (Collector.exists_mem_fields_iff hc).1 ⟨m, hm, rfl, rfl⟩
    obtain ⟨g, set?', hg, hgkey, hgtype⟩ :=
      (Collector.exists_mem_fields_iff he).1 ⟨n, hn, rfl, rfl⟩
    by_contra hne
    exact Collector.not_conflictsAt_of_collect_eq_ok hd m.key m.type n.type
      ⟨f, g, set?, set?', hmember.yields hf, hother.yields hg, hfkey, hgkey.trans hkey.symm,
        hftype, hgtype, hne⟩

/-- If what is found can be combined, merging succeeds. -/
theorem Combines.exists_collect (h : r.Combines object? set) (hset : r.Holds set.selections)
    (hfragments : ∀ f ∈ r, r.Holds f.set.selections) :
    ∃ d, (merging r).collect set object? = .ok d := by
  cases hd : (merging r).collect set object? with
  | ok d => exact ⟨d, rfl⟩
  | error err =>
    obtain ⟨key, first, second, ⟨f, g, set?, set?', hf, hg, rfl, hkey, rfl, rfl, hne⟩, -⟩ :=
      Collector.conflictsAt_of_collect_eq_error (x := merging r) hset hfragments hd
    obtain ⟨member, c, hmember, hc, m, hm, hmkey, hmtype⟩ := h.exists_finds hf
    obtain ⟨other, e, hother, he, n, hn, hnkey, hntype⟩ := h.exists_finds hg
    have htypes := h.agree member other hmember hother c e hc he m hm n hn
      (hmkey.trans (hkey.symm.trans hnkey.symm))
    exact absurd (hmtype.symm.trans (htypes.trans hntype)) hne

end FragmentRegistry

/-! ## Both ways -/

namespace Compilation

open Collector (merging recording)

/-- **Merging fragments collects what is found by following references**: it succeeds if and only if
the fields found there can be combined, and then it yields their keys and types, and no others. -/
theorem collect_merging_spec {schema : Schema} {document : Document} {options : Options}
    {c : Compilation} (h : compile schema document options = .ok c) {set : SelectionSet}
    (hset : c.Contains set) (object? : Option String) :
    ((∃ d, (merging c.fragments).collect set object? = .ok d) ↔
      c.fragments.Combines object? set) ∧
    ∀ d, (merging c.fragments).collect set object? = .ok d → ∀ key type,
      (∃ m ∈ d.fields, m.key = key ∧ m.type = type) ↔
        ∃ member e, c.fragments.Finds object? set member ∧
          (recording c.fragments).collect member object? = .ok e ∧
            ∃ m ∈ e.fields, m.key = key ∧ m.type = type := by
  have hholds := holds_of_contains h hset
  have hfragments : ∀ f ∈ c.fragments, c.fragments.Holds f.set.selections :=
    fun f hf => ((sound_of_compile h).fragments f hf).held
  refine ⟨⟨fun ⟨d, hd⟩ => FragmentRegistry.combines_of_collect hholds hfragments hd,
    fun hcombines => hcombines.exists_collect hholds hfragments⟩, fun d hd key type => ?_⟩
  rw [Collector.exists_mem_fields_iff hd]
  constructor
  · rintro ⟨f, set?, hyields, rfl, rfl⟩
    exact (FragmentRegistry.combines_of_collect hholds hfragments hd).exists_finds hyields
  · rintro ⟨member, e, hfinds, he, hm⟩
    obtain ⟨f, set?, hyields, hkey, htype⟩ := (Collector.exists_mem_fields_iff he).1 hm
    exact ⟨f, set?, hfinds.yields hyields, hkey, htype⟩

end Compilation

/-! ## Fragments that use each other -/

/-- A query for pets, whose details are spread over two fragments that use each other. -/
def roundabout : Document where
  operations := [{
    name := "Pets"
    operationType := "query"
    selections := [.field "pets" none [.spread "Common"]] }]
  fragments := [{
      name := "Common"
      typeCondition := "Pet"
      selections := [.field "__typename" none [], .spread "Special"] }, {
      name := "Special"
      typeCondition := "Cat"
      selections := [.field "lives" none [], .spread "Common"] }]

/-- The selections on the pets. -/
def petsSet : SelectionSet where
  parentType := "Pet"
  possible := ["Cat", "Dog"]
  selections := [.spread "Common" "Pet" ["Cat", "Dog"]]

/-- The lives of a cat are found by way of both fragments. -/
theorem collect_merging_spec_petsSet :
    ∃ c d, compile shelter roundabout {} = .ok c ∧ c.Contains petsSet ∧
      (Collector.merging c.fragments).collect petsSet (some "Cat") = .ok d ∧
        c.fragments.Combines (some "Cat") petsSet ∧
        ∃ member e, c.fragments.Finds (some "Cat") petsSet member ∧
          (Collector.recording c.fragments).collect member (some "Cat") = .ok e ∧
            ∃ m ∈ e.fields, m.key = "lives" ∧ m.type = .named .scalar "Int" := by
  obtain ⟨c, hcompile, hset, d, hd, hmem⟩ :
      ∃ c, compile shelter roundabout {} = .ok c ∧ c.Contains petsSet ∧
        ∃ d, (Collector.merging c.fragments).collect petsSet (some "Cat") = .ok d ∧
          ∃ m ∈ d.fields, m.key = "lives" ∧ m.type = .named .scalar "Int" :=
    ⟨_, by cbv, .inl ⟨_, List.mem_cons_self, .branch .refl List.mem_cons_self⟩, _, by cbv, _,
      List.mem_cons_of_mem _ List.mem_cons_self, rfl, rfl⟩
  obtain ⟨hiff, hfields⟩ := Compilation.collect_merging_spec hcompile hset (some "Cat")
  exact ⟨c, d, hcompile, hset, hd, hiff.1 ⟨d, hd⟩, (hfields d hd _ _).1 hmem⟩

end ResponseTypes
