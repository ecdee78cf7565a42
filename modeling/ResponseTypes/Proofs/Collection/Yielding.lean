import ResponseTypes.Proofs.Collection.Encounters

/-!
# What selections yield

A list of selections yields a field if it can be reached through fragments that apply, however often
one and the same fragment has to be opened on the way.  Collecting never opens a fragment inside
itself, so it is not evident that it comes across all of these fields; that it comes across no
others is.

## What is here

* `Collector.Yields` — the fields that can be reached; `Collector.yields_of_mem_walk`.
-/

set_option autoImplicit false

namespace ResponseTypes
namespace Collector

/-- A field, with the selections made on its value, can be reached from a list of selections through
fragments that apply to an object type. -/
inductive Yields (x : Collector) (object? : Option String) :
    List Selection → Field → Option SelectionSet → Prop where
  | leaf {l : List Selection} {f : Field} (h : .leaf f ∈ l) : Yields x object? l f none
  | branch {l : List Selection} {f : Field} {set : SelectionSet} (h : .branch f set ∈ l) :
    Yields x object? l f (some set)
  | inline {l : List Selection} {condition : String} {possible : List String}
    {set : SelectionSet} {f : Field} {set? : Option SelectionSet}
    (h : .inline condition possible set ∈ l) (happlies : applies possible object? = true)
    (hyields : Yields x object? set.selections f set?) : Yields x object? l f set?
  | spread {l : List Selection} {name condition : String} {possible : List String}
    {g : Fragment} {f : Field} {set? : Option SelectionSet}
    (h : .spread name condition possible ∈ l) (happlies : applies possible object? = true)
    (hmerges : x.merges = true) (hget : x.fragments.get? name = some g)
    (hyields : Yields x object? g.set.selections f set?) : Yields x object? l f set?

variable {x : Collector} {object? : Option String}

theorem Yields.mono {l l' : List Selection} {f : Field} {set? : Option SelectionSet}
    (h : Yields x object? l f set?) (hl : l ⊆ l') : Yields x object? l' f set? := by
  cases h with
  | leaf h => exact .leaf (hl h)
  | branch h => exact .branch (hl h)
  | inline h happlies hyields => exact .inline (hl h) happlies hyields
  | spread h happlies hmerges hget hyields => exact .spread (hl h) happlies hmerges hget hyields

/-- **A walk comes across no field that cannot be reached.** -/
theorem yields_of_mem_walk {opened : List String} {todo : List Placed} {p : Place} {f : Field}
    {set? : Option SelectionSet} (h : .field p f set? ∈ x.walk object? opened todo) :
    Yields x object? (todo.map Placed.selection) f set? := by
  induction opened, todo using walk.induct x object? with
  | case1 opened => simp [walk] at h
  | case2 opened q g rest ih =>
    rw [walk] at h
    rcases List.mem_cons.1 h with heq | h
    · cases heq
      exact .leaf List.mem_cons_self
    · exact (ih h).mono (List.subset_cons_self _ _)
  | case3 opened q g set rest ih =>
    rw [walk] at h
    rcases List.mem_cons.1 h with heq | h
    · cases heq
      exact .branch List.mem_cons_self
    · exact (ih h).mono (List.subset_cons_self _ _)
  | case4 opened q condition possible set rest happlies ihset ih =>
    rw [walk, if_pos happlies] at h
    rcases List.mem_append.1 h with h | h
    · have hset := ihset h
      rw [Placed.map_selection_within] at hset
      exact .inline List.mem_cons_self happlies hset
    · exact (ih h).mono (List.subset_cons_self _ _)
  | case5 opened q condition possible set rest happlies ih =>
    rw [walk, if_neg happlies] at h
    exact (ih h).mono (List.subset_cons_self _ _)
  | case6 opened q name condition possible rest happlies hmerges hopen ih =>
    rw [walk, if_pos happlies, if_pos hmerges, dif_pos hopen] at h
    exact (ih h).mono (List.subset_cons_self _ _)
  | case7 opened q name condition possible rest happlies hmerges hopen hget ih =>
    rw [walk_missing _ _ _ happlies hmerges (by simpa using hopen) hget] at h
    rcases List.mem_cons.1 h with heq | h
    · cases heq
    · exact (ih h).mono (List.subset_cons_self _ _)
  | case8 opened q name condition possible rest happlies hmerges hopen g hget ihbody ih =>
    rw [walk_opening _ _ _ happlies hmerges (by simpa using hopen) hget] at h
    rcases List.mem_append.1 h with h | h
    · have hbody := ihbody h
      rw [Placed.map_selection_within] at hbody
      exact .spread List.mem_cons_self happlies hmerges hget hbody
    · exact (ih h).mono (List.subset_cons_self _ _)
  | case9 opened q name condition possible rest happlies hmerges ih =>
    rw [walk, if_pos happlies, if_neg hmerges] at h
    rcases List.mem_cons.1 h with heq | h
    · cases heq
    · exact (ih h).mono (List.subset_cons_self _ _)
  | case10 opened q name condition possible rest happlies ih =>
    rw [walk, if_neg happlies] at h
    exact (ih h).mono (List.subset_cons_self _ _)

theorem yields_of_mem_encounters {set : SelectionSet} {p : Place} {f : Field}
    {set? : Option SelectionSet} (h : .field p f set? ∈ x.encounters set object?) :
    Yields x object? set.selections f set? := by
  have hyields := yields_of_mem_walk h
  rwa [Placed.map_selection_within] at hyields

end Collector
end ResponseTypes
