import ResponseTypes.Proofs.Collection.Repeating
import ResponseTypes.Proofs.Emission.Ending

/-!
# Declaring what is selected twice

Collecting does not forget that selections are made twice, and so the selection sets that are
declared on the way down are not the same ones.  But all of them are made twice then: those that
were equal are equal still, and share a declaration as before; and those that were not are not.  At
the bottom there are no selections left to tell the difference, and the declarations are the same
ones, under the same names.

## What is here

* `NestedTable.twice` — the table with all selections made twice.
* `EmissionContext.propertyType_twice`, `properties_twice`, `shapes_twice` — one level.
* `EmissionContext.selectionDeclaration_append_self` — the whole declaration.
-/

set_option autoImplicit false

namespace ResponseTypes

/-! ## Tables -/

namespace NestedTable

/-- The table with the selections of all its entries made twice. -/
def twice (table : NestedTable) : NestedTable :=
  table.map fun e => { e with set := e.set.append e.set }

theorem declarations_twice (table : NestedTable) :
    table.twice.declarations = table.declarations := by
  rw [declarations, declarations, twice, List.map_map]
  rfl

/-- What is shared when selections are made once is shared when they are made twice. -/
theorem name?_twice (table : NestedTable) (key : String) (set : SelectionSet) :
    table.twice.name? key (set.append set) = table.name? key set := by
  have hset : ∀ e : NestedEntry, (e.set.append e.set == set.append set) = (e.set == set) := by
    intro e
    rw [Bool.eq_iff_iff, beq_iff_eq, beq_iff_eq]
    exact SelectionSet.append_self_injective.eq_iff
  rw [name?, name?, twice, List.find?_map, Option.map_map]
  simp only [Function.comp_def, hset]

end NestedTable

namespace EmissionContext

/-! ## One level -/

section Levels

variable (x : EmissionContext) {declare : String → SelectionSet → Emit Declaration}
  (hdeclare : ∀ name below, declare name (below.append below) = declare name below)

include hdeclare

/-- **One field** whose selections are made twice has the same type, by the same steps. -/
theorem propertyType_twice (table : NestedTable) (m : MergedField) :
    x.propertyType declare table.twice m.twice
      = (fun r => (r.1, r.2.twice)) <$> x.propertyType declare table m := by
  obtain ⟨key, name, type, description?, set?, literals?⟩ := m
  rw [propertyType, propertyType]
  simp only [MergedField.twice]
  cases literals? with
  | some literals => simp only [map_pure]
  | none =>
    cases set? with
    | none => simp only [Option.map_none, map_bind, map_pure]
    | some set =>
      cases type.isComposite with
      | false => simp only [Option.map_some, map_bind, map_pure]
      | true =>
        simp only [Option.map_some, table.name?_twice]
        cases table.name? key set with
        | some name => simp only [map_bind, map_pure]
        | none =>
          simp only [map_bind, map_pure, hdeclare, NestedTable.twice, List.map_append,
            List.map_cons, List.map_nil]

theorem properties_twice (table : NestedTable) (ms : List MergedField) :
    x.properties declare table.twice (ms.map MergedField.twice)
      = (fun r => (r.1, r.2.twice)) <$> x.properties declare table ms := by
  induction ms generalizing table with
  | nil => simp only [List.map_nil, properties, map_pure]
  | cons m ms ih =>
    rw [List.map_cons, properties, properties, propertyType_twice x hdeclare]
    simp only [bind_map_left, ih, map_bind, map_pure]
    rfl

theorem shapes_twice (table : NestedTable) (vs : List Variant) :
    x.shapes declare table.twice (vs.map Variant.twice)
      = (fun r => (r.1, r.2.twice)) <$> x.shapes declare table vs := by
  induction vs generalizing table with
  | nil => simp only [List.map_nil, shapes, map_pure]
  | cons v vs ih =>
    have hfields : v.twice.fields = v.fields.map MergedField.twice := rfl
    rw [List.map_cons, shapes, shapes, hfields, properties_twice x hdeclare]
    simp only [bind_map_left, ih, map_bind, map_pure]
    rfl

theorem declarationBy_append_self (name : String) (description? : Option String)
    (set : SelectionSet) :
    x.declarationBy declare name description? (set.append set)
      = x.declarationBy declare name description? set := by
  rw [declarationBy, declarationBy, Collector.variants_append_self]
  cases x.collector.variants set with
  | error err => rfl
  | ok vs =>
    have hshapes := shapes_twice x hdeclare [] vs
    have hnil : NestedTable.twice [] = [] := rfl
    rw [hnil] at hshapes
    simp only [Except.map, Emit.ofExcept, pure_bind, hshapes, bind_map_left,
      NestedTable.declarations_twice]

end Levels

/-! ## All levels -/

/-- Making selections twice does not make them nest any deeper. -/
theorem nestingBound_append_self (x : EmissionContext) (set : SelectionSet) :
    x.nestingBound (set.append set) = x.nestingBound set := by
  have hdepth : ∀ l m : List Selection, Selection.listDepth (l ++ m)
      = max (Selection.listDepth l) (Selection.listDepth m) := by
    intro l m
    induction l with
    | nil => simp [Selection.listDepth]
    | cons s l ih => rw [List.cons_append, Selection.listDepth, Selection.listDepth, ih, max_assoc]
  rw [nestingBound, nestingBound, SelectionSet.depth_eq, SelectionSet.depth_eq]
  change Selection.listDepth (set.selections ++ set.selections) + _ = _
  rw [hdepth, max_self]

/-- **Making all selections twice changes nothing.**  The declaration of a selection set with its
own selections put behind them once more is that of the selection set: from every session the same
declaration is built, with all those inside it and their names, or there is the same error; and the
session afterwards is the same.  This does not depend on the number of levels that is allowed for.
-/
theorem selectionDeclaration_append_self (x : EmissionContext) (name : String)
    (description? : Option String) (set : SelectionSet) :
    (∀ levels, x.declarationWithin levels name description? (set.append set)
      = x.declarationWithin levels name description? set) ∧
    x.selectionDeclaration name description? (set.append set)
      = x.selectionDeclaration name description? set := by
  have hwithin : ∀ (levels : Nat) (name : String) (description? : Option String)
      (set : SelectionSet), x.declarationWithin levels name description? (set.append set)
        = x.declarationWithin levels name description? set := by
    intro levels
    induction levels with
    | zero => exact fun _ _ _ => rfl
    | succ levels ih =>
      intro name description? set
      rw [declarationWithin_succ, declarationWithin_succ]
      exact declarationBy_append_self x (fun name below => ih name none below) name description? set
  refine ⟨fun levels => hwithin levels name description? set, ?_⟩
  rw [selectionDeclaration, selectionDeclaration, levelsFor, levelsFor, nestingBound_append_self]
  exact hwithin _ name description? set

end EmissionContext
end ResponseTypes
