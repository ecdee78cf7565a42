import ResponseTypes.Proofs.Collection.Encounters

/-!
# Opening each fragment once

The textbook way to collect fields keeps a list of the fragments that have been opened and opens
none of them a second time.  It needs no more than one list of selections that are still to be
looked at, to which the selections of a fragment are put in front.  The collector of this library
keeps another list, of the fragments that are open at the moment, and so it may open a fragment many
times over; the textbook collector serves as the reference it is held against.

## What is here

* `Collector.collectOnce` — the reference collector, which merges every use of a fragment.
* `Collector.visit` — the encounters it merges; `Collector.collectOnceInto_eq_foldlM` says so.
-/

set_option autoImplicit false

namespace ResponseTypes
namespace Collector

/-! ## The reference collector -/

theorem sizeOf_append_lt (condition : String) (possible : List String) (set : SelectionSet)
    (rest : List Selection) :
    sizeOf (set.selections ++ rest)
      < sizeOf (Selection.inline condition possible set :: rest) := by
  have happend : ∀ l : List Selection, sizeOf (l ++ rest) ≤ sizeOf l + sizeOf rest := by
    intro l
    induction l with
    | nil => simp
    | cons s l ih =>
      simp only [List.cons_append, List.cons.sizeOf_spec]
      omega
  have hset := happend set.selections
  cases set
  simp only [List.cons.sizeOf_spec, Selection.inline.sizeOf_spec, SelectionSet.mk.sizeOf_spec]
    at hset ⊢
  omega

/-- Collects a list of selections into what has been collected before, and opens no fragment that
has been visited. -/
def collectOnceInto (x : Collector) (object? : Option String) (visited : List String) :
    List Selection → Collected → Except GenerationError Collected
  | [], c => .ok c
  | .leaf f :: rest, c =>
    match MergedField.add f none c.fields with
    | .ok fields => x.collectOnceInto object? visited rest { c with fields }
    | .error e => .error e
  | .branch f set :: rest, c =>
    match MergedField.add f (some set) c.fields with
    | .ok fields => x.collectOnceInto object? visited rest { c with fields }
    | .error e => .error e
  | .inline _ possible set :: rest, c =>
    if applies possible object? then
      x.collectOnceInto object? visited (set.selections ++ rest) c
    else x.collectOnceInto object? visited rest c
  | .spread name _ possible :: rest, c =>
    if applies possible object? then
      if _hvisited : visited.contains name then x.collectOnceInto object? visited rest c
      else
        match _hget : x.fragments.get? name with
        | none => .error (.schema (.fragmentNotFound name))
        | some f => x.collectOnceInto object? (name :: visited) (f.set.selections ++ rest) c
    else x.collectOnceInto object? visited rest c
termination_by selections => (x.unopened visited, sizeOf selections)
decreasing_by
  case _ => exact Prod.Lex.right _ (sizeOf_tail_lt _ _)
  case _ => exact Prod.Lex.right _ (sizeOf_tail_lt _ _)
  case _ => exact Prod.Lex.right _ (sizeOf_append_lt _ _ _ _)
  case _ => exact Prod.Lex.right _ (sizeOf_tail_lt _ _)
  case _ => exact Prod.Lex.right _ (sizeOf_tail_lt _ _)
  case _ =>
    exact Prod.Lex.left _ _ (x.unopened_cons_lt visited name f _hget (by simpa using _hvisited))
  case _ => exact Prod.Lex.right _ (sizeOf_tail_lt _ _)

/-- The fields a selection set yields for an object type, if every use of a fragment is merged and
each fragment is opened at most once. -/
def collectOnce (x : Collector) (set : SelectionSet) (object? : Option String) :
    Except GenerationError Collected :=
  x.collectOnceInto object? [] set.selections {}

/-! ## Its encounters -/

/-- What has been come across, and the fragments that have been visited after it. -/
structure Visit where
  encounters : List Encounter
  visited : List String

/-- A visit that comes after some encounters. -/
def Visit.after (es : List Encounter) (v : Visit) : Visit :=
  { v with encounters := es ++ v.encounters }

@[simp] theorem Visit.after_encounters (es : List Encounter) (v : Visit) :
    (v.after es).encounters = es ++ v.encounters := rfl

@[simp] theorem Visit.after_visited (es : List Encounter) (v : Visit) :
    (v.after es).visited = v.visited := rfl

theorem Visit.after_after (es fs : List Encounter) (v : Visit) :
    (v.after fs).after es = v.after (es ++ fs) := by
  simp [Visit.after]

/-- What is come across in a list of selections if no fragment is opened that has been visited. -/
def visit (x : Collector) (object? : Option String) (visited : List String) : List Placed → Visit
  | [] => ⟨[], visited⟩
  | ⟨p, .leaf f⟩ :: rest => (x.visit object? visited rest).after [.field p f none]
  | ⟨p, .branch f set⟩ :: rest => (x.visit object? visited rest).after [.field p f (some set)]
  | ⟨p, .inline _ possible set⟩ :: rest =>
    if applies possible object? then x.visit object? visited (Placed.within p set ++ rest)
    else x.visit object? visited rest
  | ⟨p, .spread name _ possible⟩ :: rest =>
    if applies possible object? then
      if _hvisited : visited.contains name then x.visit object? visited rest
      else
        match _hget : x.fragments.get? name with
        | none => (x.visit object? visited rest).after [.missing p name]
        | some f => x.visit object? (name :: visited) (Placed.within ⟨some name, []⟩ f.set ++ rest)
    else x.visit object? visited rest
termination_by todo => (x.unopened visited, sizeOf (todo.map Placed.selection))
decreasing_by
  case _ => exact Prod.Lex.right _ (sizeOf_tail_lt _ _)
  case _ => exact Prod.Lex.right _ (sizeOf_tail_lt _ _)
  case _ =>
    rw [List.map_append, Placed.map_selection_within]
    exact Prod.Lex.right _ (sizeOf_append_lt _ _ _ _)
  case _ => exact Prod.Lex.right _ (sizeOf_tail_lt _ _)
  case _ => exact Prod.Lex.right _ (sizeOf_tail_lt _ _)
  case _ => exact Prod.Lex.right _ (sizeOf_tail_lt _ _)
  case _ =>
    exact Prod.Lex.left _ _ (x.unopened_cons_lt visited name f _hget (by simpa using _hvisited))
  case _ => exact Prod.Lex.right _ (sizeOf_tail_lt _ _)

/-- What the reference collector comes across. -/
def encountersOnce (x : Collector) (set : SelectionSet) (object? : Option String) :
    List Encounter :=
  (x.visit object? [] (Placed.within ⟨none, []⟩ set)).encounters

section Spreads

variable {x : Collector} {object? : Option String} {visited : List String} {name : String}
  {possible : List String} (condition : String)

theorem collectOnceInto_missing (rest : List Selection) (c : Collected)
    (happlies : applies possible object? = true) (hvisited : visited.contains name = false)
    (hget : x.fragments.get? name = none) :
    x.collectOnceInto object? visited (.spread name condition possible :: rest) c
      = .error (.schema (.fragmentNotFound name)) := by
  rw [collectOnceInto, if_pos happlies, dif_neg (by simpa using hvisited)]
  split
  · rfl
  · rename_i f hf
    cases hget.symm.trans hf

theorem collectOnceInto_opening {f : Fragment} (rest : List Selection) (c : Collected)
    (happlies : applies possible object? = true) (hvisited : visited.contains name = false)
    (hget : x.fragments.get? name = some f) :
    x.collectOnceInto object? visited (.spread name condition possible :: rest) c
      = x.collectOnceInto object? (name :: visited) (f.set.selections ++ rest) c := by
  rw [collectOnceInto, if_pos happlies, dif_neg (by simpa using hvisited)]
  split
  · rename_i hf
    cases hget.symm.trans hf
  · rename_i g hg
    obtain rfl : f = g := Option.some.inj (hget.symm.trans hg)
    rfl

theorem visit_missing (p : Place) (rest : List Placed)
    (happlies : applies possible object? = true) (hvisited : visited.contains name = false)
    (hget : x.fragments.get? name = none) :
    x.visit object? visited (⟨p, .spread name condition possible⟩ :: rest)
      = (x.visit object? visited rest).after [.missing p name] := by
  rw [visit, if_pos happlies, dif_neg (by simpa using hvisited)]
  split
  · rfl
  · rename_i f hf
    cases hget.symm.trans hf

theorem visit_opening {f : Fragment} (p : Place) (rest : List Placed)
    (happlies : applies possible object? = true) (hvisited : visited.contains name = false)
    (hget : x.fragments.get? name = some f) :
    x.visit object? visited (⟨p, .spread name condition possible⟩ :: rest)
      = x.visit object? (name :: visited) (Placed.within ⟨some name, []⟩ f.set ++ rest) := by
  rw [visit, if_pos happlies, dif_neg (by simpa using hvisited)]
  split
  · rename_i hf
    cases hget.symm.trans hf
  · rename_i g hg
    obtain rfl : f = g := Option.some.inj (hget.symm.trans hg)
    rfl

end Spreads

/-- **The reference collector merges what it visits**, one thing after the other. -/
theorem collectOnceInto_eq_foldlM (x : Collector) (object? : Option String)
    (visited : List String) (todo : List Placed) (c : Collected) :
    x.collectOnceInto object? visited (todo.map Placed.selection) c
      = (x.visit object? visited todo).encounters.foldlM Collected.meet c := by
  induction visited, todo using visit.induct x object? generalizing c with
  | case1 visited => simp [collectOnceInto, visit, pure, Except.pure]
  | case2 visited p f rest ih =>
    rw [List.map_cons, collectOnceInto, visit, Visit.after_encounters, List.singleton_append,
      List.foldlM_cons, Collected.meet]
    cases MergedField.add f none c.fields with
    | ok fields => exact ih _
    | error e => rfl
  | case3 visited p f set rest ih =>
    rw [List.map_cons, collectOnceInto, visit, Visit.after_encounters, List.singleton_append,
      List.foldlM_cons, Collected.meet]
    cases MergedField.add f (some set) c.fields with
    | ok fields => exact ih _
    | error e => rfl
  | case4 visited p condition possible set rest happlies ih =>
    rw [List.map_cons, collectOnceInto, if_pos happlies, visit, if_pos happlies, ← ih,
      List.map_append, Placed.map_selection_within]
  | case5 visited p condition possible set rest happlies ih =>
    rw [List.map_cons, collectOnceInto, if_neg happlies, visit, if_neg happlies]
    exact ih c
  | case6 visited p name condition possible rest happlies hvisited ih =>
    rw [List.map_cons, collectOnceInto, if_pos happlies, dif_pos hvisited, visit, if_pos happlies,
      dif_pos hvisited]
    exact ih c
  | case7 visited p name condition possible rest happlies hvisited hget ih =>
    have hvisited : visited.contains name = false := by simpa using hvisited
    rw [List.map_cons, collectOnceInto_missing _ _ _ happlies hvisited hget,
      visit_missing _ _ _ happlies hvisited hget]
    rfl
  | case8 visited p name condition possible rest happlies hvisited f hget ih =>
    have hvisited : visited.contains name = false := by simpa using hvisited
    rw [List.map_cons, collectOnceInto_opening _ _ _ happlies hvisited hget,
      visit_opening _ _ _ happlies hvisited hget, ← ih, List.map_append,
      Placed.map_selection_within]
  | case9 visited p name condition possible rest happlies ih =>
    rw [List.map_cons, collectOnceInto, if_neg happlies, visit, if_neg happlies]
    exact ih c

theorem collectOnce_eq_foldlM (x : Collector) (set : SelectionSet) (object? : Option String) :
    x.collectOnce set object? = (x.encountersOnce set object?).foldlM Collected.meet {} := by
  rw [collectOnce, encountersOnce, ← collectOnceInto_eq_foldlM, Placed.map_selection_within]

/-- Two lists of selections are visited one after the other. -/
theorem visit_append (x : Collector) (object? : Option String) (visited : List String)
    (l m : List Placed) :
    x.visit object? visited (l ++ m)
      = (x.visit object? (x.visit object? visited l).visited m).after
          (x.visit object? visited l).encounters := by
  induction visited, l using visit.induct x object? with
  | case1 visited => rw [visit]; rfl
  | case2 visited p f rest ih => rw [List.cons_append, visit, visit, ih, Visit.after_after]; rfl
  | case3 visited p f set rest ih => rw [List.cons_append, visit, visit, ih, Visit.after_after]; rfl
  | case4 visited p condition possible set rest happlies ih =>
    rw [List.cons_append, visit, visit, if_pos happlies, if_pos happlies, ← List.append_assoc, ih]
  | case5 visited p condition possible set rest happlies ih =>
    rw [List.cons_append, visit, visit, if_neg happlies, if_neg happlies, ih]
  | case6 visited p name condition possible rest happlies hvisited ih =>
    rw [List.cons_append, visit, visit, if_pos happlies, if_pos happlies, dif_pos hvisited,
      dif_pos hvisited, ih]
  | case7 visited p name condition possible rest happlies hvisited hget ih =>
    have hvisited : visited.contains name = false := by simpa using hvisited
    rw [List.cons_append, visit_missing _ _ _ happlies hvisited hget,
      visit_missing _ _ _ happlies hvisited hget, ih, Visit.after_after]
    rfl
  | case8 visited p name condition possible rest happlies hvisited f hget ih =>
    have hvisited : visited.contains name = false := by simpa using hvisited
    rw [List.cons_append, visit_opening _ _ _ happlies hvisited hget,
      visit_opening _ _ _ happlies hvisited hget, ← List.append_assoc, ih]
  | case9 visited p name condition possible rest happlies ih =>
    rw [List.cons_append, visit, visit, if_neg happlies, if_neg happlies, ih]

end Collector
end ResponseTypes
