import ResponseTypes.Proofs.Collection.Visiting
import ResponseTypes.Proofs.FirstOccurrence

/-!
# Opening fragments again

A walk that only refuses fragments that are open may come back to a fragment any number of times.
It then comes across nothing new: a fragment that is left is *settled*, everything in it has been
seen and every fragment it uses has been visited.  A use that is refused is no loss either, for the
open fragment is settled by the time it is left.

So the encounters of the walk are, up to repeats, those of visiting each fragment once.

## What is here

* `Settled`, and `Closed`, the invariant: whatever has been visited is open or settled.
* `Settled.mem_of_mem_walk` — walking over what is settled shows nothing new.
* `Tracks`, and `tracks_visit` — what visiting once comes across is what is fresh on the walk.
* `encountersOnce_eq_eraseDups` — the same for a whole selection set.
-/

set_option autoImplicit false

namespace ResponseTypes
namespace Collector

variable {x : Collector} {object? : Option String}

/-! ## Settled selections -/

/-- Everything that applies in a list of selections has been seen, and the fragments it uses have
been visited. -/
inductive Settled (x : Collector) (object? : Option String) (visited : List String)
    (seen : List Encounter) : List Placed → Prop where
  | nil : Settled x object? visited seen []
  | leaf {p : Place} {f : Field} {rest : List Placed} (hseen : .field p f none ∈ seen)
    (hrest : Settled x object? visited seen rest) :
    Settled x object? visited seen (⟨p, .leaf f⟩ :: rest)
  | branch {p : Place} {f : Field} {set : SelectionSet} {rest : List Placed}
    (hseen : .field p f (some set) ∈ seen) (hrest : Settled x object? visited seen rest) :
    Settled x object? visited seen (⟨p, .branch f set⟩ :: rest)
  | inline {p : Place} {condition : String} {possible : List String} {set : SelectionSet}
    {rest : List Placed}
    (hset : applies possible object? = true → Settled x object? visited seen (Placed.within p set))
    (hrest : Settled x object? visited seen rest) :
    Settled x object? visited seen (⟨p, .inline condition possible set⟩ :: rest)
  | spread {p : Place} {name condition : String} {possible : List String} {rest : List Placed}
    (hname : applies possible object? = true → name ∈ visited ∨
      (x.fragments.get? name = none ∧ .missing p name ∈ seen))
    (hrest : Settled x object? visited seen rest) :
    Settled x object? visited seen (⟨p, .spread name condition possible⟩ :: rest)

theorem Settled.mono {visited visited' : List String} {seen seen' : List Encounter}
    {todo : List Placed} (h : Settled x object? visited seen todo) (hvisited : visited ⊆ visited')
    (hseen : seen ⊆ seen') : Settled x object? visited' seen' todo := by
  induction h with
  | nil => exact .nil
  | leaf hmem _ ih => exact .leaf (hseen hmem) ih
  | branch hmem _ ih => exact .branch (hseen hmem) ih
  | inline _ _ ihset ih => exact .inline ihset ih
  | spread hname _ ih =>
    refine .spread (fun happlies => ?_) ih
    rcases hname happlies with hmem | ⟨hget, hmem⟩
    · exact .inl (hvisited hmem)
    · exact .inr ⟨hget, hseen hmem⟩

/-- Each selection of a settled list is settled. -/
theorem Settled.singleton {visited : List String} {seen : List Encounter} {todo : List Placed}
    (h : Settled x object? visited seen todo) {t : Placed} (ht : t ∈ todo) :
    Settled x object? visited seen [t] := by
  induction h with
  | nil => cases ht
  | leaf hseen _ ih =>
    rcases List.mem_cons.1 ht with rfl | ht
    · exact .leaf hseen .nil
    · exact ih ht
  | branch hseen _ ih =>
    rcases List.mem_cons.1 ht with rfl | ht
    · exact .branch hseen .nil
    · exact ih ht
  | inline hset _ _ ih =>
    rcases List.mem_cons.1 ht with rfl | ht
    · exact .inline hset .nil
    · exact ih ht
  | spread hname _ ih =>
    rcases List.mem_cons.1 ht with rfl | ht
    · exact .spread hname .nil
    · exact ih ht

/-- Whatever has been visited is open, or it is a fragment whose selections are settled. -/
def Closed (x : Collector) (object? : Option String) (opened visited : List String)
    (seen : List Encounter) : Prop :=
  ∀ name ∈ visited, name ∈ opened ∨ ∃ f, x.fragments.get? name = some f ∧
    Settled x object? visited seen (Placed.within ⟨some name, []⟩ f.set)

/-- What has been visited and is not open is a fragment that is settled. -/
theorem Closed.settled_of_mem {opened visited : List String} {seen : List Encounter}
    {name : String} (h : Closed x object? opened visited seen) (hmem : name ∈ visited)
    (hopen : opened.contains name = false) :
    ∃ f, x.fragments.get? name = some f ∧
      Settled x object? visited seen (Placed.within ⟨some name, []⟩ f.set) := by
  rcases h name hmem with hopened | hsettled
  · rw [List.contains_eq_mem, decide_eq_false_iff_not] at hopen
    exact absurd hopened hopen
  · exact hsettled

/-- An open fragment may be left as soon as it is settled. -/
theorem Closed.leave {opened visited : List String} {seen : List Encounter} {name : String}
    {f : Fragment} (h : Closed x object? (name :: opened) visited seen)
    (hget : x.fragments.get? name = some f)
    (hset : Settled x object? visited seen (Placed.within ⟨some name, []⟩ f.set)) :
    Closed x object? opened visited seen := by
  intro other hother
  rcases h other hother with hopen | hsettled
  · rcases List.mem_cons.1 hopen with rfl | hopen
    · exact .inr ⟨f, hget, hset⟩
    · exact .inl hopen
  · exact .inr hsettled

theorem Closed.mono_seen {opened visited : List String} {seen seen' : List Encounter}
    (h : Closed x object? opened visited seen) (hseen : seen ⊆ seen') :
    Closed x object? opened visited seen' := by
  intro name hname
  refine (h name hname).imp_right ?_
  rintro ⟨f, hget, hset⟩
  exact ⟨f, hget, hset.mono (List.Subset.refl _) hseen⟩

theorem Closed.open {opened visited : List String} {seen : List Encounter} (name : String)
    (h : Closed x object? opened visited seen) :
    Closed x object? (name :: opened) (name :: visited) seen := by
  intro other hother
  rcases List.mem_cons.1 hother with rfl | hother
  · exact .inl List.mem_cons_self
  · rcases h other hother with hopen | ⟨f, hget, hset⟩
    · exact .inl (List.mem_cons_of_mem _ hopen)
    · exact .inr ⟨f, hget, hset.mono (List.subset_cons_self _ _) (List.Subset.refl _)⟩

theorem Closed.opened_cons {opened visited : List String} {seen : List Encounter} (name : String)
    (h : Closed x object? opened visited seen) :
    Closed x object? (name :: opened) visited seen :=
  fun other hother => (h other hother).imp_left (List.mem_cons_of_mem _)

/-- **Walking over what is settled shows nothing new.** -/
theorem Settled.mem_of_mem_walk (hmerges : x.merges = true) {opened visited : List String}
    {seen : List Encounter} {todo : List Placed}
    (hclosed : Closed x object? opened visited seen)
    (h : Settled x object? visited seen todo) :
    ∀ e ∈ x.walk object? opened todo, e ∈ seen := by
  induction opened, todo using walk.induct x object? with
  | case1 opened => simp [walk]
  | case2 opened p f rest ih =>
    cases h with
    | leaf hmem hrest =>
      rw [walk]
      exact List.forall_mem_cons.2 ⟨hmem, ih hclosed hrest⟩
  | case3 opened p f set rest ih =>
    cases h with
    | branch hmem hrest =>
      rw [walk]
      exact List.forall_mem_cons.2 ⟨hmem, ih hclosed hrest⟩
  | case4 opened p condition possible set rest happlies ihset ih =>
    cases h with
    | inline hset hrest =>
      rw [walk, if_pos happlies]
      exact List.forall_mem_append.2 ⟨ihset hclosed (hset happlies), ih hclosed hrest⟩
  | case5 opened p condition possible set rest happlies ih =>
    cases h with
    | inline _ hrest =>
      rw [walk, if_neg happlies]
      exact ih hclosed hrest
  | case6 opened p name condition possible rest happlies _ hopen ih =>
    cases h with
    | spread _ hrest =>
      rw [walk, if_pos happlies, if_pos hmerges, dif_pos hopen]
      exact ih hclosed hrest
  | case7 opened p name condition possible rest happlies _ hopen hget ih =>
    have hopen : opened.contains name = false := by simpa using hopen
    cases h with
    | spread hname hrest =>
      rw [walk_missing _ _ _ happlies hmerges hopen hget]
      refine List.forall_mem_cons.2 ⟨?_, ih hclosed hrest⟩
      rcases hname happlies with hvisited | ⟨-, hmem⟩
      · obtain ⟨f, hf, -⟩ := hclosed.settled_of_mem hvisited hopen
        cases hget.symm.trans hf
      · exact hmem
  | case8 opened p name condition possible rest happlies _ hopen f hget ihbody ih =>
    have hopen : opened.contains name = false := by simpa using hopen
    cases h with
    | spread hname hrest =>
      rw [walk_opening _ _ _ happlies hmerges hopen hget]
      refine List.forall_mem_append.2 ⟨ihbody (hclosed.opened_cons name) ?_, ih hclosed hrest⟩
      rcases hname happlies with hvisited | ⟨hnone, -⟩
      · obtain ⟨g, hg, hset⟩ := hclosed.settled_of_mem hvisited hopen
        obtain rfl : f = g := Option.some.inj (hget.symm.trans hg)
        exact hset
      · cases hnone.symm.trans hget
  | case9 opened p name condition possible rest happlies hmerges' ih =>
    exact absurd hmerges hmerges'
  | case10 opened p name condition possible rest happlies ih =>
    cases h with
    | spread _ hrest =>
      rw [walk, if_neg happlies]
      exact ih hclosed hrest

/-! ## Places that have not been reached -/

/-- Nothing seen stands where a list of selections stands, whose places hold no common place. -/
structure Clear (visited : List String) (seen : List Encounter) (todo : List Placed) : Prop where
  apart : todo.Pairwise fun s t => s.place.Apart t.place
  home : ∀ t ∈ todo, ∀ name ∈ t.place.fragment?, name ∈ visited
  unseen : ∀ t ∈ todo, ∀ e ∈ seen, ¬ t.place.Holds e.place
  seenHome : ∀ e ∈ seen, ∀ name ∈ e.place.fragment?, name ∈ visited

/-- An encounter stands at a place that another holds, or in a fragment that has only been visited
lately. -/
def StandsIn (visited visited' : List String) (p : Place) (e : Encounter) : Prop :=
  p.Holds e.place ∨ ∃ name ∈ visited', name ∉ visited ∧ e.place.fragment? = some name

namespace Clear

variable {visited visited' : List String} {seen es : List Encounter} {t : Placed}
  {rest : List Placed}

/-- The selections behind the first stay clear while encounters are made there. -/
theorem tail (h : Clear visited seen (t :: rest)) (hvisited : visited ⊆ visited')
    (hes : ∀ e ∈ es, StandsIn visited visited' t.place e) : Clear visited' (seen ++ es) rest := by
  have happart := List.pairwise_cons.1 h.apart
  refine ⟨happart.2, ?_, ?_, ?_⟩
  · intro s hs name hname
    exact hvisited (h.home s (List.mem_cons_of_mem _ hs) name hname)
  · intro s hs e he hholds
    rcases List.mem_append.1 he with he | he
    · exact h.unseen s (List.mem_cons_of_mem _ hs) e he hholds
    · rcases hes e he with hheld | ⟨name, -, hnew, hhome⟩
      · rcases hheld.total hholds with hts | hst
        · exact (happart.1 s hs).1 hts
        · exact (happart.1 s hs).2 hst
      · exact hnew (h.home s (List.mem_cons_of_mem _ hs) name (hholds.1.trans hhome))
  · intro e he name hname
    rcases List.mem_append.1 he with he | he
    · exact hvisited (h.seenHome e he name hname)
    · rcases hes e he with hheld | ⟨other, hother, -, hhome⟩
      · exact hvisited (h.home t List.mem_cons_self name (hheld.1.trans hname))
      · obtain rfl : other = name := Option.some.inj (hhome.symm.trans hname)
        exact hother

theorem within_inline {p : Place} {condition : String} {possible : List String}
    {set : SelectionSet}
    (h : Clear visited seen (⟨p, .inline condition possible set⟩ :: rest)) :
    Clear visited seen (Placed.within p set) := by
  refine ⟨Placed.pairwise_apart_within p set, ?_, ?_, h.seenHome⟩
  · intro t ht name hname
    obtain ⟨i, hi⟩ := Placed.mem_within ht
    rw [hi] at hname
    exact h.home _ List.mem_cons_self name hname
  · intro t ht e he hholds
    obtain ⟨i, hi⟩ := Placed.mem_within ht
    rw [hi] at hholds
    exact h.unseen _ List.mem_cons_self e he ((p.holds_below i).trans hholds)

/-- Nothing has been seen in a fragment that has not been visited. -/
theorem within_fragment {name : String} (set : SelectionSet) (h : Clear visited seen rest)
    (hname : name ∉ visited) :
    Clear (name :: visited) seen (Placed.within ⟨some name, []⟩ set) := by
  refine ⟨Placed.pairwise_apart_within _ set, ?_, ?_, ?_⟩
  · intro t ht other hother
    obtain ⟨i, hi⟩ := Placed.mem_within ht
    rw [hi] at hother
    obtain rfl : name = other := Option.some.inj hother
    exact List.mem_cons_self
  · intro t ht e he hholds
    obtain ⟨i, hi⟩ := Placed.mem_within ht
    rw [hi] at hholds
    exact hname (h.seenHome e he name hholds.1.symm)
  · intro e he other hother
    exact List.mem_cons_of_mem _ (h.seenHome e he other hother)

end Clear

/-! ## Visiting tracks walking -/

/-- A visit comes across what is fresh on a walk, and settles the selections. -/
structure Tracks (x : Collector) (object? : Option String) (opened visited : List String)
    (seen : List Encounter) (todo : List Placed) (v : Visit) : Prop where
  encounters : v.encounters = fresh seen (x.walk object? opened todo)
  visited_subset : visited ⊆ v.visited
  settled : Settled x object? v.visited (seen ++ v.encounters) todo
  closed : Closed x object? opened v.visited (seen ++ v.encounters)
  stands : ∀ e ∈ v.encounters, ∃ t ∈ todo, StandsIn visited v.visited t.place e

/-- The first selection and then the rest: a visit may be put together. -/
theorem Tracks.cons {opened visited visited' : List String} {seen es : List Encounter}
    {t : Placed} {rest : List Placed} {v : Visit} (ws : List Encounter)
    (hwalk : x.walk object? opened (t :: rest) = ws ++ x.walk object? opened rest)
    (hes : es = fresh seen ws) (hvisited : visited ⊆ visited')
    (hstands : ∀ e ∈ es, StandsIn visited visited' t.place e)
    (hrest : Tracks x object? opened visited' (seen ++ es) rest v)
    (hsettled : Settled x object? v.visited (seen ++ es ++ v.encounters) (t :: rest)) :
    Tracks x object? opened visited seen (t :: rest) (v.after es) := by
  refine ⟨?_, ?_, ?_, ?_, ?_⟩
  · rw [Visit.after_encounters, hwalk, fresh_append, ← hes, ← hrest.encounters]
  · exact fun name hname => hrest.visited_subset (hvisited hname)
  · rw [Visit.after_encounters, Visit.after_visited, ← List.append_assoc]
    exact hsettled
  · rw [Visit.after_encounters, Visit.after_visited, ← List.append_assoc]
    exact hrest.closed
  · intro e he
    rw [Visit.after_visited]
    rcases List.mem_append.1 he with he | he
    · refine ⟨t, List.mem_cons_self, ?_⟩
      refine (hstands e he).imp_right ?_
      rintro ⟨name, hname, hnew, hhome⟩
      exact ⟨name, hrest.visited_subset hname, hnew, hhome⟩
    · obtain ⟨s, hs, hstands'⟩ := hrest.stands e he
      refine ⟨s, List.mem_cons_of_mem _ hs, hstands'.imp_right ?_⟩
      rintro ⟨name, hname, hnew, hhome⟩
      exact ⟨name, hname, fun h => hnew (hvisited h), hhome⟩

theorem StandsIn.of_within {visited visited' : List String} {p : Place} {set : SelectionSet}
    {e : Encounter} (h : ∃ t ∈ Placed.within p set, StandsIn visited visited' t.place e) :
    StandsIn visited visited' p e := by
  obtain ⟨t, ht, hstands⟩ := h
  obtain ⟨i, hi⟩ := Placed.mem_within ht
  rw [hi] at hstands
  exact hstands.imp_left (p.holds_below i).trans

section Heads

variable {opened visited : List String} {seen : List Encounter} {t : Placed}
  {rest : List Placed} {v : Visit}

/-- A first selection that shows one thing, at its own place. -/
theorem Tracks.single {e : Encounter} (hplace : e.place = t.place)
    (hclear : Clear visited seen (t :: rest))
    (hwalk : x.walk object? opened (t :: rest) = e :: x.walk object? opened rest)
    (hrest : Clear visited (seen ++ [e]) rest →
      Tracks x object? opened visited (seen ++ [e]) rest v)
    (hsettled : Settled x object? v.visited (seen ++ [e] ++ v.encounters) rest →
      Settled x object? v.visited (seen ++ [e] ++ v.encounters) (t :: rest)) :
    Tracks x object? opened visited seen (t :: rest) (v.after [e]) := by
  have hnew : e ∉ seen := by
    intro hmem
    refine hclear.unseen t List.mem_cons_self e hmem ?_
    rw [hplace]
    exact Place.Holds.refl t.place
  have hstands : ∀ e' ∈ [e], StandsIn visited visited t.place e' := by
    intro e' he'
    rw [List.mem_singleton.1 he', StandsIn, hplace]
    exact .inl (Place.Holds.refl t.place)
  have htracks := hrest (hclear.tail (List.Subset.refl _) hstands)
  refine .cons [e] hwalk ?_ (List.Subset.refl _) hstands htracks
    (hsettled htracks.settled)
  rw [fresh_cons, if_neg hnew, fresh_nil]

/-- A first selection that shows nothing new. -/
theorem Tracks.skip (ws : List Encounter) (hclear : Clear visited seen (t :: rest))
    (hwalk : x.walk object? opened (t :: rest) = ws ++ x.walk object? opened rest)
    (hold : ∀ e ∈ ws, e ∈ seen)
    (hrest : Clear visited seen rest → Tracks x object? opened visited seen rest v)
    (hsettled : Tracks x object? opened visited seen rest v →
      Settled x object? v.visited (seen ++ v.encounters) (t :: rest)) :
    Tracks x object? opened visited seen (t :: rest) v := by
  have hnil : seen ++ [] = seen := List.append_nil seen
  have hclear' : Clear visited (seen ++ []) rest := hclear.tail (List.Subset.refl _) (by simp)
  have htracks := hrest (hnil ▸ hclear')
  exact .cons ws hwalk (fresh_eq_nil hold).symm (List.Subset.refl _) (by simp)
    (hnil.symm ▸ htracks) (hnil.symm ▸ hsettled htracks)

/-- A first selection that is an inline fragment which applies: the visit goes through it first. -/
theorem Tracks.inside {w : Visit} {p : Place} {condition : String} {possible : List String}
    {set : SelectionSet} (hopened : opened ⊆ visited)
    (hclear : Clear visited seen (⟨p, .inline condition possible set⟩ :: rest))
    (hwalk : x.walk object? opened (⟨p, .inline condition possible set⟩ :: rest)
      = x.walk object? opened (Placed.within p set) ++ x.walk object? opened rest)
    (hset : Tracks x object? opened visited seen (Placed.within p set) v)
    (hrest : opened ⊆ v.visited → Closed x object? opened v.visited (seen ++ v.encounters) →
      Clear v.visited (seen ++ v.encounters) rest →
      Tracks x object? opened v.visited (seen ++ v.encounters) rest w) :
    Tracks x object? opened visited seen (⟨p, .inline condition possible set⟩ :: rest)
      (w.after v.encounters) := by
  have hstands : ∀ e ∈ v.encounters, StandsIn visited v.visited p e :=
    fun e he => .of_within (hset.stands e he)
  have htracks := hrest (List.Subset.trans hopened hset.visited_subset) hset.closed
    (hclear.tail hset.visited_subset hstands)
  refine .cons _ hwalk hset.encounters hset.visited_subset hstands htracks ?_
  refine .inline (fun _ => ?_) htracks.settled
  exact hset.settled.mono htracks.visited_subset (List.subset_append_left _ _)

/-- A first selection that uses a fragment which has not been visited: the visit goes through the
fragment first, which is settled when it is left. -/
theorem Tracks.opening {w : Visit} {p : Place} {name condition : String} {possible : List String}
    {f : Fragment} (hget : x.fragments.get? name = some f) (hnew : name ∉ visited)
    (hopened : opened ⊆ visited)
    (hclear : Clear visited seen (⟨p, .spread name condition possible⟩ :: rest))
    (hwalk : x.walk object? opened (⟨p, .spread name condition possible⟩ :: rest)
      = x.walk object? (name :: opened) (Placed.within ⟨some name, []⟩ f.set)
        ++ x.walk object? opened rest)
    (hbody : Tracks x object? (name :: opened) (name :: visited) seen
      (Placed.within ⟨some name, []⟩ f.set) v)
    (hrest : opened ⊆ v.visited → Closed x object? opened v.visited (seen ++ v.encounters) →
      Clear v.visited (seen ++ v.encounters) rest →
      Tracks x object? opened v.visited (seen ++ v.encounters) rest w) :
    Tracks x object? opened visited seen (⟨p, .spread name condition possible⟩ :: rest)
      (w.after v.encounters) := by
  have hsub : visited ⊆ v.visited :=
    fun other hother => hbody.visited_subset (List.mem_cons_of_mem _ hother)
  have hname : name ∈ v.visited := hbody.visited_subset List.mem_cons_self
  have hstands : ∀ e ∈ v.encounters, StandsIn visited v.visited p e := by
    intro e he
    obtain hholds | ⟨other, hother, hlately, hhome⟩ := StandsIn.of_within (hbody.stands e he)
    · exact .inr ⟨name, hname, hnew, hholds.1.symm⟩
    · exact .inr ⟨other, hother, fun h => hlately (List.mem_cons_of_mem _ h), hhome⟩
  have htracks := hrest (List.Subset.trans hopened hsub) (hbody.closed.leave hget hbody.settled)
    (hclear.tail hsub hstands)
  refine .cons _ hwalk hbody.encounters hsub hstands htracks ?_
  exact .spread (fun _ => .inl (htracks.visited_subset hname)) htracks.settled

end Heads

/-- **Visiting each fragment once comes across what is fresh on the walk.** -/
theorem tracks_visit (hmerges : x.merges = true) {opened visited : List String}
    {seen : List Encounter} {todo : List Placed} (hopened : opened ⊆ visited)
    (hclosed : Closed x object? opened visited seen) (hclear : Clear visited seen todo) :
    Tracks x object? opened visited seen todo (x.visit object? visited todo) := by
  induction opened, todo using walk.induct x object? generalizing visited seen with
  | case1 opened =>
    rw [visit]
    refine ⟨?_, List.Subset.refl _, .nil, ?_, by simp⟩
    · rw [walk, fresh_nil]
    · rw [List.append_nil]
      exact hclosed
  | case2 opened p f rest ih =>
    rw [visit]
    refine .single rfl hclear (by rw [walk]) ?_ (.leaf (by simp))
    exact ih hopened (hclosed.mono_seen (List.subset_append_left _ _))
  | case3 opened p f set rest ih =>
    rw [visit]
    refine .single rfl hclear (by rw [walk]) ?_ (.branch (by simp))
    exact ih hopened (hclosed.mono_seen (List.subset_append_left _ _))
  | case4 opened p condition possible set rest happlies ihset ih =>
    rw [visit, if_pos happlies, visit_append]
    refine .inside hopened hclear ?_ (ihset hopened hclosed hclear.within_inline) ih
    rw [walk, if_pos happlies]
  | case5 opened p condition possible set rest happlies ih =>
    rw [visit, if_neg happlies]
    refine .skip [] hclear ?_ (by simp) (ih hopened hclosed) ?_
    · rw [walk, if_neg happlies]
      rfl
    · exact fun htracks => .inline (fun h => absurd h happlies) htracks.settled
  | case6 opened p name condition possible rest happlies _ hopen ih =>
    have hmem : name ∈ visited := hopened (by simpa using hopen)
    rw [visit, if_pos happlies, dif_pos (by simpa using hmem)]
    refine .skip [] hclear ?_ (by simp) (ih hopened hclosed) ?_
    · rw [walk, if_pos happlies, if_pos hmerges, dif_pos hopen]
      rfl
    · intro htracks
      exact .spread (fun _ => .inl (htracks.visited_subset hmem)) htracks.settled
  | case7 opened p name condition possible rest happlies _ hopen hget ih =>
    have hopen : opened.contains name = false := by simpa using hopen
    have hvisited : visited.contains name = false := by
      rw [List.contains_eq_mem, decide_eq_false_iff_not]
      intro hmem
      obtain ⟨f, hf, -⟩ := hclosed.settled_of_mem hmem hopen
      cases hget.symm.trans hf
    rw [visit_missing _ _ _ happlies hvisited hget]
    refine .single rfl hclear (walk_missing _ _ _ happlies hmerges hopen hget) ?_ ?_
    · exact ih hopened (hclosed.mono_seen (List.subset_append_left _ _))
    · exact .spread (fun _ => .inr ⟨hget, by simp⟩)
  | case8 opened p name condition possible rest happlies _ hopen f hget ihbody ih =>
    have hopen : opened.contains name = false := by simpa using hopen
    have hwalk := walk_opening condition p rest happlies hmerges hopen hget
    by_cases hmem : name ∈ visited
    · -- A fragment that has been left is walked over again, and is settled.
      rw [visit, if_pos happlies, dif_pos (by simpa using hmem)]
      obtain ⟨g, hg, hset⟩ := hclosed.settled_of_mem hmem hopen
      obtain rfl : f = g := Option.some.inj (hget.symm.trans hg)
      refine .skip _ hclear hwalk ?_ (ih hopened hclosed) ?_
      · exact hset.mem_of_mem_walk hmerges (hclosed.opened_cons name)
      · intro htracks
        exact .spread (fun _ => .inl (htracks.visited_subset hmem)) htracks.settled
    · rw [visit_opening _ _ _ happlies (by simpa using hmem) hget, visit_append]
      exact .opening hget hmem hopened hclear hwalk
        (ihbody (List.cons_subset_cons name hopened) (hclosed.open name)
          (hclear.within_fragment f.set hmem)) ih
  | case9 opened p name condition possible rest happlies hmerges' ih =>
    exact absurd hmerges hmerges'
  | case10 opened p name condition possible rest happlies ih =>
    rw [visit, if_neg happlies]
    refine .skip [] hclear ?_ (by simp) (ih hopened hclosed) ?_
    · rw [walk, if_neg happlies]
      rfl
    · exact fun htracks => .spread (fun h => absurd h happlies) htracks.settled

/-! ## A whole selection set -/

theorem tracks_visit_within (hmerges : x.merges = true) (set : SelectionSet)
    (object? : Option String) :
    Tracks x object? [] [] [] (Placed.within ⟨none, []⟩ set)
      (x.visit object? [] (Placed.within ⟨none, []⟩ set)) := by
  refine tracks_visit hmerges (List.Subset.refl _) (by simp [Closed]) ?_
  refine ⟨Placed.pairwise_apart_within _ set, ?_, by simp, by simp⟩
  intro t ht name hname
  obtain ⟨i, hi⟩ := Placed.mem_within ht
  rw [hi] at hname
  cases hname

/-- **Visiting comes across what walking does, without the repeats.** -/
theorem encountersOnce_eq_eraseDups (hmerges : x.merges = true) (set : SelectionSet) :
    x.encountersOnce set object? = (x.encounters set object?).eraseDups := by
  rw [encountersOnce, (tracks_visit_within hmerges set object?).encounters, fresh_nil_left]
  rfl

end Collector
end ResponseTypes
