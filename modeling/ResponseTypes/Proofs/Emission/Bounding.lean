import ResponseTypes.Proofs.Emission.Verdicts
import ResponseTypes.Proofs.Selection.Subterms

/-!
# How many levels a declaration can want

A way down leaves the selections that are written in the set it starts from after as many steps as
fields nest there.  From then on it stays among the selections of the fragments.  The sets it passes
are all different up to repeats, and there are only so many lists of these selections without
repeats.  So if the declaration of a set can be built or fails at all, it does within the levels
that are allowed for.

## What is here

* `listsUpTo` — the lists that `numLists` counts.
* `Selection.Within` — selections from a list, and others that do not nest deep;
  `EmissionContext.Opened` — sets that are put together from selections of the fragments.
* `EmissionContext.Wants.lt_of_opened`, `EmissionContext.Wants.le_of_within` — the levels that can
  be wanted.
* `EmissionContext.verdict_levelsFor` — the levels that are allowed for suffice.
-/

set_option autoImplicit false

namespace ResponseTypes

/-! ## Lists of letters -/

/-- The lists of at most a given length that are made of some letters. -/
def listsUpTo {α : Type} (letters : List α) : Nat → List (List α)
  | 0 => [[]]
  | length + 1 => [] :: letters.flatMap fun a => (listsUpTo letters length).map (a :: ·)

theorem length_listsUpTo {α : Type} (letters : List α) (length : Nat) :
    (listsUpTo letters length).length = numLists letters.length length := by
  induction length with
  | zero => rfl
  | succ length ih =>
    rw [listsUpTo, List.length_cons, List.length_flatMap, numLists, Nat.add_comm]
    simp only [List.length_map, ih, List.map_const', List.sum_replicate_nat]

theorem mem_listsUpTo {α : Type} {letters l : List α} {length : Nat} (hl : l ⊆ letters)
    (hlength : l.length ≤ length) : l ∈ listsUpTo letters length := by
  induction l generalizing length with
  | nil => cases length <;> simp [listsUpTo]
  | cons a l ih =>
    obtain ⟨ha, hl⟩ := List.cons_subset.1 hl
    cases length with
    | zero => cases hlength
    | succ length =>
      refine List.mem_cons_of_mem _ (List.mem_flatMap.2 ⟨a, ha, ?_⟩)
      exact List.mem_map_of_mem (ih hl (Nat.le_of_succ_le_succ hlength))

/-! ## Selections of the fragments -/

namespace EmissionContext

variable {x : EmissionContext}

/-- With a selection of the fragments all that is inside it is one. -/
theorem subterms_subset_fragmentSelections {s : Selection} (h : s ∈ x.fragmentSelections) :
    s.subterms ⊆ x.fragmentSelections := by
  obtain ⟨f, hf, hs⟩ := List.mem_flatMap.1 h
  exact fun t ht => List.mem_flatMap.2 ⟨f, hf, f.set.subterms_subset hs ht⟩

theorem selections_subset_of_branch_mem {f : Field} {set : SelectionSet}
    (h : .branch f set ∈ x.fragmentSelections) : set.selections ⊆ x.fragmentSelections := by
  intro s hs
  refine subterms_subset_fragmentSelections h (List.mem_cons_of_mem _ ?_)
  exact set.selections_subset_subterms hs

theorem selections_subset_of_inline_mem {condition : String} {possible : List String}
    {set : SelectionSet} (h : .inline condition possible set ∈ x.fragmentSelections) :
    set.selections ⊆ x.fragmentSelections := by
  intro s hs
  refine subterms_subset_fragmentSelections h (List.mem_cons_of_mem _ ?_)
  exact set.selections_subset_subterms hs

theorem selections_subset_of_mem {f : Fragment} (h : f ∈ x.fragments) :
    f.set.selections ⊆ x.fragmentSelections :=
  fun _ hs => List.mem_flatMap.2 ⟨f, h, f.set.selections_subset_subterms hs⟩

/-! ## On the way down -/

/-- Each selection of a list is one of the fragments, or fewer than so many fields nest in it. -/
def Within (x : EmissionContext) (depth : Nat) (l : List Selection) : Prop :=
  ∀ s ∈ l, s ∈ x.fragmentSelections ∨ s.depth < depth

/-- What is yielded is selected in a fragment, or it nests less deep by one field. -/
theorem Within.of_yields {depth : Nat} {object? : Option String} {l : List Selection} {f : Field}
    {part : SelectionSet} (hl : x.Within depth l)
    (h : x.collector.Yields object? l f (some part)) :
    .branch f part ∈ x.fragmentSelections ∨ part.depth + 1 < depth := by
  generalize hset : some part = set? at h
  induction h with
  | leaf => cases hset
  | branch hmem =>
    cases hset
    exact hl _ hmem
  | inline hmem _ _ ih =>
    refine ih (fun s hs => ?_) hset
    rcases hl _ hmem with hinside | hdepth
    · exact .inl (selections_subset_of_inline_mem hinside hs)
    · refine .inr (Nat.lt_of_le_of_lt (Selection.depth_le_listDepth hs) ?_)
      rwa [← SelectionSet.depth_eq]
  | spread _ _ _ hget _ ih =>
    exact ih (fun s hs => .inl (selections_subset_of_mem (FragmentRegistry.mem_of_get? hget) hs))
      hset

/-- A set that is put together from selections of the fragments. -/
structure Opened (x : EmissionContext) (set : SelectionSet) : Prop where
  header : ∃ f part, .branch f part ∈ x.fragmentSelections ∧
    set = { part with selections := set.selections }
  selections : set.selections ⊆ x.fragmentSelections

/-- The sets that can be put together from selections of the fragments, without repeats. -/
def openedSets (x : EmissionContext) : List SelectionSet :=
  x.fragmentSelections.flatMap fun
    | .branch _ set =>
      (listsUpTo x.fragmentSelections x.fragmentSize).map fun l => { set with selections := l }
    | _ => []

theorem length_openedSets_le (x : EmissionContext) :
    x.openedSets.length ≤ x.fragmentSize * numLists x.fragmentSize x.fragmentSize := by
  rw [openedSets, fragmentSize, ← length_listsUpTo x.fragmentSelections]
  generalize listsUpTo x.fragmentSelections x.fragmentSelections.length = lists
  induction x.fragmentSelections with
  | nil => exact Nat.zero_le _
  | cons s l ih =>
    rw [List.flatMap_cons, List.length_append, List.length_cons, Nat.succ_mul, Nat.add_comm]
    refine Nat.add_le_add ih ?_
    cases s with
    | branch f set => exact Nat.le_of_eq (List.length_map _)
    | leaf f | inline condition possible set | spread name condition possible =>
      exact Nat.zero_le _

theorem Opened.distinct_mem {set : SelectionSet} (h : x.Opened set) :
    set.distinct ∈ x.openedSets := by
  obtain ⟨⟨f, part, hmem, heq⟩, hsubset⟩ := h
  have hletters : set.selections.eraseDups ⊆ x.fragmentSelections :=
    fun s hs => hsubset (List.mem_eraseDups.1 hs)
  refine List.mem_flatMap.2 ⟨_, hmem, List.mem_map.2 ⟨set.selections.eraseDups, ?_, ?_⟩⟩
  · exact mem_listsUpTo hletters ((nodup_eraseDups _).length_le_of_subset hletters)
  · rw [heq]
    rfl

/-- **One step further down.**  Selections that are written in the set are left behind one by one,
and then the sets are put together from selections of the fragments. -/
theorem exists_parts_of_mem_inner {set below : SelectionSet} {depth : Nat}
    (hset : x.Within depth set.selections) (hbelow : below ∈ x.collector.inner set) :
    x.Within (depth - 1) below.selections ∧ (depth ≤ 1 → x.Opened below) := by
  obtain ⟨object?, -, c, hc, m, hm, hmset⟩ := Collector.reaches_of_mem_inner hbelow
  obtain ⟨first, rest, rfl, hyields⟩ := Collector.exists_parts_of_mem hc hm hmset
  have hparts : ∀ part ∈ first :: rest, ∃ f, .branch f part ∈ x.fragmentSelections ∨
      part.depth + 1 < depth := by
    intro part hpart
    obtain ⟨f, hf⟩ := hyields part hpart
    exact ⟨f, hset.of_yields hf⟩
  constructor
  · intro s hs
    obtain ⟨part, hpart, hs⟩ := List.mem_flatMap.1 hs
    obtain ⟨f, hinside | hdepth⟩ := hparts part hpart
    · exact .inl (selections_subset_of_branch_mem hinside hs)
    · have hle := Selection.depth_le_listDepth hs
      rw [← SelectionSet.depth_eq] at hle
      exact .inr (by omega)
  · intro hshallow
    have hinside : ∀ part ∈ first :: rest, ∃ f, .branch f part ∈ x.fragmentSelections := by
      intro part hpart
      obtain ⟨f, hf⟩ := hparts part hpart
      exact ⟨f, hf.resolve_right (by omega)⟩
    constructor
    · obtain ⟨f, hf⟩ := hinside first List.mem_cons_self
      exact ⟨f, first, hf, rfl⟩
    · intro s hs
      obtain ⟨part, hpart, hs⟩ := List.mem_flatMap.1 hs
      obtain ⟨f, hf⟩ := hinside part hpart
      exact selections_subset_of_branch_mem hf hs

/-! ## The levels that can be wanted -/

namespace Wants

variable {set : SelectionSet} {levels : Nat}

/-- The sets on the way down are all different, even without the repeats in them. -/
theorem exists_nodup (hset : x.Opened set) (h : x.Wants set levels) :
    ∃ sets : List SelectionSet, sets.length = levels + 1 ∧ sets.Nodup ∧
      ∀ below ∈ sets, below ∈ x.openedSets ∧ ∃ n ≤ levels, x.Wants below n := by
  induction levels generalizing set with
  | zero =>
    refine ⟨[set.distinct], rfl, List.nodup_singleton _, ?_⟩
    rw [List.forall_mem_singleton]
    exact ⟨hset.distinct_mem, 0, Nat.le_refl 0, h.distinct⟩
  | succ levels ih =>
    obtain ⟨below, hbelow, hwants⟩ := h.exists_inner
    have hwithin : x.Within 0 set.selections := fun s hs => .inl (hset.selections hs)
    have hopened := (exists_parts_of_mem_inner hwithin hbelow).2 (Nat.zero_le 1)
    obtain ⟨sets, hlength, hnodup, hsets⟩ := ih hopened hwants
    refine ⟨set.distinct :: sets, by rw [List.length_cons, hlength], ?_, ?_⟩
    · refine List.nodup_cons.2 ⟨fun hmem => ?_, hnodup⟩
      -- Of the sets further down fewer levels are wanted.
      obtain ⟨-, n, hn, hwants'⟩ := hsets _ hmem
      have := h.distinct.le hwants'
      omega
    · refine List.forall_mem_cons.2 ⟨⟨hset.distinct_mem, _, Nat.le_refl _, h.distinct⟩, ?_⟩
      intro below hmem
      obtain ⟨hmem', n, hn, hwants'⟩ := hsets below hmem
      exact ⟨hmem', n, Nat.le_succ_of_le hn, hwants'⟩

/-- Among the selections of the fragments no more levels are wanted than there are sets. -/
theorem lt_of_opened (hset : x.Opened set) (h : x.Wants set levels) :
    levels < x.openedSets.length := by
  obtain ⟨sets, hlength, hnodup, hsets⟩ := h.exists_nodup hset
  have hle := hnodup.length_le_of_subset fun below hbelow => (hsets below hbelow).1
  omega

/-- **The levels that can be wanted**: one for each field that nests in the set, and one for each
set that can be put together from selections of the fragments. -/
theorem le_of_within {depth : Nat} (hset : x.Within (depth + 1) set.selections)
    (h : x.Wants set levels) : levels ≤ depth + x.openedSets.length := by
  induction depth generalizing set levels with
  | zero =>
    cases levels with
    | zero => exact Nat.zero_le _
    | succ levels =>
      obtain ⟨below, hbelow, hwants⟩ := h.exists_inner
      have hopened := (exists_parts_of_mem_inner hset hbelow).2 (Nat.le_refl 1)
      have hlt := hwants.lt_of_opened hopened
      omega
  | succ depth ih =>
    cases levels with
    | zero => exact Nat.zero_le _
    | succ levels =>
      obtain ⟨below, hbelow, hwants⟩ := h.exists_inner
      have hle := ih (exists_parts_of_mem_inner hset hbelow).1 hwants
      omega

end Wants

/-- **The levels that are allowed for suffice**: if within some number of levels the declaration of
a set is built or fails, within those it is or does so, too. -/
theorem verdict_levelsFor {set : SelectionSet} {levels : Nat}
    (h : x.verdict levels set ≠ .endless) :
    x.verdict (x.levelsFor set) set = x.verdict levels set := by
  have hwithin : x.Within (set.depth + 1) set.selections := by
    intro s hs
    have hle := Selection.depth_le_listDepth hs
    rw [← SelectionSet.depth_eq] at hle
    exact .inr (Nat.lt_succ_of_le hle)
  have henough : x.verdict (x.levelsFor set) set ≠ .endless := by
    intro hmore
    obtain ⟨wanted, hle, hwants⟩ := exists_wants hmore h
    have hwanted := hwants.le_of_within hwithin
    have hsets := x.length_openedSets_le
    rw [levelsFor, nestingBound] at hle
    omega
  rcases Nat.le_total levels (x.levelsFor set) with hle | hle
  · exact verdict_eq_of_le hle h
  · exact (verdict_eq_of_le hle henough).symm

end EmissionContext
end ResponseTypes
