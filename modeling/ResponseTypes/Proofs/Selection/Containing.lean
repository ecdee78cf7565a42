import ResponseTypes.Proofs.Selection.Fields
import ResponseTypes.Proofs.Selection.Uses

/-!
# Selection sets inside selection sets

A selection set contains those that are made on the values of its fields and those of the fragments
written in place, at any depth.  It does not contain the selections of a fragment that it uses by
name: these stand elsewhere.

## What is here

* `SelectionSet.Contains`.
* `FragmentRegistry.Holds.of_contains`, `SelectionSet.all_of_contains` — what goes inwards.
-/

set_option autoImplicit false

namespace ResponseTypes

/-- A selection set is inside another one, or is that set. -/
inductive SelectionSet.Contains (top : SelectionSet) : SelectionSet → Prop where
  | refl : Contains top top
  | branch {above below : SelectionSet} {f : Field} (h : Contains top above)
    (hmem : .branch f below ∈ above.selections) : Contains top below
  | inline {above below : SelectionSet} {condition : String} {possible : List String}
    (h : Contains top above) (hmem : .inline condition possible below ∈ above.selections) :
    Contains top below

theorem SelectionSet.Contains.trans {top above below : SelectionSet} (h : top.Contains above)
    (h' : above.Contains below) : top.Contains below := by
  induction h' with
  | refl => exact h
  | branch _ hmem ih => exact .branch ih hmem
  | inline _ hmem ih => exact .inline ih hmem

/-- Fragments used inside a selection set are used in it. -/
theorem FragmentRegistry.Holds.of_contains {r : FragmentRegistry} {top below : SelectionSet}
    (h : r.Holds top.selections) (hbelow : top.Contains below) : r.Holds below.selections := by
  induction hbelow with
  | refl => exact h
  | branch _ hmem ih => exact fun k name huses => ih (k + 1) name (.branch hmem huses)
  | inline _ hmem ih => exact fun k name huses => ih k name (.inline hmem huses)

namespace SelectionSet

theorem sizeOf_lt_of_mem {set : SelectionSet} {s : Selection} (h : s ∈ set.selections) :
    sizeOf s < sizeOf set := by
  have hlt := List.sizeOf_lt_of_mem h
  cases set
  simp only [SelectionSet.mk.sizeOf_spec] at hlt ⊢
  omega

/-- **What holds of the fields of every selection set inside** holds of all fields. -/
theorem all_of_contains {P : Field → Option SelectionSet → Prop} (top : SelectionSet)
    (h : ∀ below, top.Contains below → ∀ f set?, Selection.ofField f set? ∈ below.selections →
      P f set?) : top.All P := by
  refine .intro fun s hs => ?_
  have hlt := sizeOf_lt_of_mem hs
  cases s with
  | leaf f => exact .leaf (h top .refl f none hs)
  | branch f set =>
    refine .branch (h top .refl f (some set) hs) (all_of_contains set fun below hbelow => ?_)
    exact h below (.trans (.branch .refl hs) hbelow)
  | inline condition possible set =>
    refine .inline (all_of_contains set fun below hbelow => ?_)
    exact h below (.trans (.inline .refl hs) hbelow)
  | spread name condition possible => exact .spread
termination_by sizeOf top
decreasing_by
  · simp only [Selection.branch.sizeOf_spec] at hlt
    omega
  · simp only [Selection.inline.sizeOf_spec] at hlt
    omega

end SelectionSet
end ResponseTypes
