import Mathlib.Data.List.Perm.Basic
import ResponseTypes.Emission.Inputs
import ResponseTypes.Proofs.Compilation.Reordering
import ResponseTypes.Proofs.Emission.Ending

/-!
# Declarations with the fragments in another order

When declarations are built, fragments are looked up by name, and the selections in all of them are
counted to bound the number of levels.  Neither depends on their order.

## What is here

* `Collector.walk_congr`, `Collector.variants_congr` — collecting depends on the fragments only by
  way of lookup.
* `EmissionContext.reorder`, with `topLevelWithin_reorder` and `inputDeclaration_reorder`.
-/

set_option autoImplicit false

namespace ResponseTypes

/-! ## Collecting -/

namespace Collector

variable {x y : Collector} (hmerges : x.merges = y.merges)
  (hget : ∀ name, x.fragments.get? name = y.fragments.get? name)

include hmerges hget

/-- **A walk depends on the fragments only by way of lookup.** -/
theorem walk_congr (object? : Option String) (opened : List String) (todo : List Placed) :
    x.walk object? opened todo = y.walk object? opened todo := by
  induction opened, todo using walk.induct x object? with
  | case1 opened => rw [walk, walk]
  | case2 opened p f rest ih => rw [walk, walk, ih]
  | case3 opened p f set rest ih => rw [walk, walk, ih]
  | case4 opened p condition possible set rest happlies ihset ih =>
    rw [walk, walk, if_pos happlies, if_pos happlies, ihset, ih]
  | case5 opened p condition possible set rest happlies ih =>
    rw [walk, walk, if_neg happlies, if_neg happlies, ih]
  | case6 opened p name condition possible rest happlies hmerge hopen ih =>
    rw [walk, walk, if_pos happlies, if_pos happlies, if_pos hmerge, if_pos (hmerges ▸ hmerge),
      dif_pos hopen, dif_pos hopen, ih]
  | case7 opened p name condition possible rest happlies hmerge hopen hnone ih =>
    have hopen : opened.contains name = false := by simpa using hopen
    rw [walk_missing _ _ _ happlies hmerge hopen hnone,
      walk_missing _ _ _ happlies (hmerges ▸ hmerge) hopen (hget name ▸ hnone), ih]
  | case8 opened p name condition possible rest happlies hmerge hopen f hsome ihbody ih =>
    have hopen : opened.contains name = false := by simpa using hopen
    rw [walk_opening _ _ _ happlies hmerge hopen hsome,
      walk_opening _ _ _ happlies (hmerges ▸ hmerge) hopen (hget name ▸ hsome), ihbody, ih]
  | case9 opened p name condition possible rest happlies hrecords ih =>
    rw [walk, walk, if_pos happlies, if_pos happlies, if_neg hrecords,
      if_neg (hmerges ▸ hrecords), ih]
  | case10 opened p name condition possible rest happlies ih =>
    rw [walk, walk, if_neg happlies, if_neg happlies, ih]

theorem collect_congr (set : SelectionSet) (object? : Option String) :
    x.collect set object? = y.collect set object? := by
  rw [collect_eq_foldlM, collect_eq_foldlM, encounters, encounters, walk_congr hmerges hget]

theorem variants_congr (set : SelectionSet) : x.variants set = y.variants set := by
  have hplace : ∀ objects vs, x.placeAll set objects vs = y.placeAll set objects vs := by
    intro objects
    induction objects with
    | nil => exact fun vs => rfl
    | cons object objects ih =>
      intro vs
      rw [placeAll, placeAll, collect_congr hmerges hget]
      simp only [ih]
  rw [variants, variants]
  simp only [collect_congr hmerges hget, hplace]

end Collector

/-! ## Declarations -/

namespace EmissionContext

/-- What declarations are built from, with other fragments. -/
def reorder (x : EmissionContext) (fragments : FragmentRegistry) : EmissionContext :=
  { x with fragments }

variable (x : EmissionContext) {fragments : FragmentRegistry}

section Lookup

variable (hget : ∀ name, fragments.get? name = x.fragments.get? name)

include hget

/-- Within a number of levels, declarations depend on the fragments only by way of lookup. -/
theorem declarationWithin_reorder (levels : Nat) (name : String) (description? : Option String)
    (set : SelectionSet) : (x.reorder fragments).declarationWithin levels name description? set
      = x.declarationWithin levels name description? set := by
  have hpropertyType : ∀ declare table m,
      (x.reorder fragments).propertyType declare table m = x.propertyType declare table m :=
    fun _ _ _ => rfl
  have hproperties : ∀ declare table ms,
      (x.reorder fragments).properties declare table ms = x.properties declare table ms := by
    intro declare table ms
    induction ms generalizing table with
    | nil => rfl
    | cons m ms ih => simp only [properties, hpropertyType, ih]
  have hshapes : ∀ declare table vs,
      (x.reorder fragments).shapes declare table vs = x.shapes declare table vs := by
    intro declare table vs
    induction vs generalizing table with
    | nil => rfl
    | cons v vs ih => simp only [shapes, hproperties, ih]
  have hvariants : ∀ set,
      (x.reorder fragments).collector.variants set = x.collector.variants set :=
    Collector.variants_congr rfl hget
  induction levels generalizing name description? set with
  | zero => rfl
  | succ levels ih =>
    rw [declarationWithin_succ, declarationWithin_succ, declarationBy, declarationBy, hvariants]
    simp only [hshapes, ih]

end Lookup

/-- **The declaration of a selection set** does not depend on the order of the fragments, if their
names are different, whatever the number of levels. -/
theorem topLevelWithin_reorder (hperm : x.fragments.Perm fragments)
    (hnodup : x.fragments.names.Nodup) (levels : Nat) (name : String) (description? : Option String)
    (set : SelectionSet) : (x.reorder fragments).topLevelWithin levels name description? set
      = x.topLevelWithin levels name description? set :=
  congrArg (Emit.inScope name) (x.declarationWithin_reorder
    (fun name => (find?_eq_of_perm hperm hnodup name).symm) levels name description? set)

/-- As many levels are allowed for, whatever the order of the fragments. -/
theorem levelsFor_reorder (hperm : x.fragments.Perm fragments) :
    (x.reorder fragments).levelsFor = x.levelsFor := by
  have hsize : (x.reorder fragments).fragmentSize = x.fragmentSize :=
    (hperm.flatMap_right fun f : Fragment => f.set.subterms).length_eq.symm
  funext set
  exact congrArg (fun n => set.depth + n * numLists n n + 1) hsize

/-! ## Inputs -/

/-- No fragment matters to inputs. -/
theorem inputDeclaration_reorder (fragments : FragmentRegistry) (d : InputObjectDefinition) :
    (x.reorder fragments).inputDeclaration d = x.inputDeclaration d := by
  have hproperties : ∀ fs : List InputField,
      (x.reorder fragments).inputProperties fs = x.inputProperties fs := by
    intro fs
    induction fs with
    | nil => rfl
    | cons f fs ih =>
      rw [inputProperties, inputProperties, ih]
      rfl
  rw [inputDeclaration, inputDeclaration, hproperties]

theorem variablesDeclaration_reorder (fragments : FragmentRegistry) (o : Operation) :
    (x.reorder fragments).variablesDeclaration o = x.variablesDeclaration o := by
  have hproperties : ∀ vs : List Variable,
      (x.reorder fragments).variableProperties vs = x.variableProperties vs := by
    intro vs
    induction vs with
    | nil => rfl
    | cons v vs ih =>
      rw [variableProperties, variableProperties, ih]
      rfl
  rw [variablesDeclaration, variablesDeclaration, hproperties]

end EmissionContext
end ResponseTypes
