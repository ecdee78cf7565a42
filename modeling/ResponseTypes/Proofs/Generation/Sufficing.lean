import ResponseTypes.Proofs.Emission.Sufficing
import ResponseTypes.Proofs.Generation.Failing
import ResponseTypes.Proofs.Generation.Outcomes

/-!
# The number of levels is of no account

A generation counts levels, and what it is meant to do is described without any count.  The two
agree: whatever is generated within some numbers of levels, with nothing left out for want of them,
is what is generated.  This includes declarations that come back to a fragment through a field and
yet end, in a conflict that lies further down.

## What is here

* `Expected.run_levelsFor`, `generateAll_levelsFor` — declarations, one after the other.
* `Compilation.generate_eq_of_generateWithin` — a whole generation.
-/

set_option autoImplicit false

namespace ResponseTypes

variable {x : EmissionContext} {levels : SelectionSet → Nat}

/-- **One declaration** that does not fail for want of levels is the same within the levels that are
allowed for. -/
theorem Expected.run_levelsFor (hfragments : ∀ g ∈ x.fragments, g.set.All Field.Expressible)
    {e : Expected} (he : ∀ set, e.set? = some set → set.All Field.Expressible) {s : Session}
    (hends : ¬ (e.outcome x levels s).IsEndless) :
    (e.declaration x x.levelsFor).run s = (e.declaration x levels).run s := by
  have hset : ∀ name (set : SelectionSet), set.All Field.Expressible →
      ¬ (x.topLevelWithin (levels set) name none set).RunsOut s →
      (x.topLevelWithin (x.levelsFor set) name none set).run s
        = (x.topLevelWithin (levels set) name none set).run s := by
    intro name set hset hends
    have hinside : ¬ (x.declarationWithin (levels set) name none set).RunsOut (s.pushScope name) :=
      hends
    exact congrArg (fun r : Except GenerationError Declaration × Session => (r.1, r.2.popScope.2))
      (x.run_levelsFor hfragments hset hinside)
  cases e with
  | input typeName => rfl
  | vars o => rfl
  | result o => exact hset o.typeName o.set (he o.set rfl) hends
  | fragment f => exact hset f.name f.set (he f.set rfl) hends

/-- **Declarations one after the other.** -/
theorem generateAll_levelsFor (hfragments : ∀ g ∈ x.fragments, g.set.All Field.Expressible)
    {es : List Expected} (hes : ∀ e ∈ es, ∀ set, e.set? = some set → set.All Field.Expressible)
    {s : Session} (hends : ∀ r ∈ outcomes x levels es s, ¬ r.IsEndless) (out : Output) :
    generateAll x x.levelsFor es s out = generateAll x levels es s out := by
  induction es generalizing s out with
  | nil => rfl
  | cons e es ih =>
    obtain ⟨he, hes⟩ := List.forall_mem_cons.1 hes
    rw [outcomes, List.forall_mem_cons] at hends
    obtain ⟨hfirst, hrest⟩ := hends
    rw [generateAll, generateAll, Expected.run_levelsFor hfragments he hfirst]
    split
    · rename_i d t hd
      rw [Expected.after_of_run_eq_ok hd] at hrest
      exact ih hes hrest _
    · rename_i err t hd
      rw [Expected.after_of_run_eq_error hd] at hrest
      simp only [ih hes hrest]

namespace Compilation

variable {schema : Schema} {document : Document} {compiled used : Options} {c : Compilation}

/-- **The number of levels is of no account.**  If a compiled document is generated within some
numbers of levels, and nothing is left out for want of them, then this is its generation. -/
theorem generate_eq_of_generateWithin (hcompile : compile schema document compiled = .ok c)
    {out : Output} (h : c.generateWithin levels used = .ok out)
    (hends : ∀ err ∈ out.failures, ¬ err.IsEndless) : c.generate used = .ok out := by
  have hsound := sound_of_compile hcompile
  have hexpressible : ∀ {set : SelectionSet}, c.Grounds set → set.All Field.WellTyped →
      set.All Field.Expressible := by
    intro set hgrounds hwell
    exact hwell.and (hgrounds.accounted.imp fun _ _ haccounts => haccounts.wrapped)
  have hfragments : ∀ g ∈ c.fragments, g.set.All Field.Expressible := fun g hg =>
    hexpressible (hsound.fragments g hg) ((all_wellTyped_of_compile hcompile).2 g hg)
  have hes : ∀ e ∈ c.expected, ∀ set, e.set? = some set → set.All Field.Expressible :=
    fun e he set hset => hexpressible (hsound.grounds_of_set? he hset)
      (wellTyped_of_mem_expected hcompile e he set hset)
  have houtcomes : ∀ r ∈ c.outcomes levels used, ¬ r.IsEndless := by
    intro r hr hendless
    obtain ⟨err, herr, hendless⟩ := (records_of_generate h).endless_iff.2 ⟨r, hr, hendless⟩
    exact hends err herr hendless
  rw [generate, generateWithin, generateAll_levelsFor hfragments hes houtcomes]
  exact h

end Compilation

/-! ## A ring -/

/-- A schema with fields of two types, and one that leads back. -/
def helpdesk : Schema :=
  Schema.ofQueryType "Query"
    |>.define (.object
      { name := "Query"
        fields := [
          { name := "hero", type := .named "String" },
          { name := "count", type := .named "Int" },
          { name := "aid", type := .named "Query" }] })

/-- A fragment that comes back to itself through a field, and meets a conflict two fields further
inside. -/
def ring : Document where
  fragments := [{
    name := "Ring"
    typeCondition := "Query"
    selections := [
      .field "hero" none [],
      .field "aid" none [.spread "Ring"],
      .field "aid" none [.field "aid" none [.field "count" (some "hero") []]]] }]

/-- The conflict is what is reported, and not that the fragment comes back to itself. -/
theorem generate_eq_of_generateWithin_ring :
    ∃ c, compile helpdesk ring {} = .ok c ∧ c.fragments.NestsInItself "Ring" ∧
      ∃ out, c.generateWithin (fun _ => 3) {} = .ok out ∧
        (∀ err ∈ out.failures, ¬ err.IsEndless) ∧ c.generate {} = .ok out ∧
        out.failures = [.inDeclaration "Ring" (.fieldMergeConflict "hero"
          (.named .scalar "String") (.named .scalar "Int"))] := by
  obtain ⟨c, hcompile, f, hget, huses, e, hexpected, hname, t, hrun⟩ :
      ∃ c, compile helpdesk ring {} = .ok c ∧
        ∃ f, c.fragments.get? "Ring" = some f ∧ Selection.Uses f.set.selections 1 "Ring" ∧
          ∃ e, c.expected = [e] ∧ e.name = "Ring" ∧ ∃ t,
            (e.declaration (c.emissionContext {}) fun _ => 3).run (c.openSession {})
              = (.error (.fieldMergeConflict "hero" (.named .scalar "String")
                  (.named .scalar "Int")), t) :=
    ⟨_, by cbv, _, by cbv,
      .branch (List.mem_cons_of_mem _ List.mem_cons_self) (.spread List.mem_cons_self), _, by cbv,
      by cbv, _, by cbv⟩
  obtain ⟨out, hout, hfailures⟩ : ∃ out, c.generateWithin (fun _ => 3) {} = .ok out ∧
      out.failures = [.inDeclaration "Ring" (.fieldMergeConflict "hero"
        (.named .scalar "String") (.named .scalar "Int"))] := by
    rw [Compilation.generateWithin, hexpected, generateAll, hrun, hname]
    refine ⟨_, rfl, ?_⟩
    simp [Output.failures, Diagnostic.failure?, List.filterMap_map, Function.comp_def]
  have hends : ∀ err ∈ out.failures, ¬ err.IsEndless := by
    rw [hfailures, List.forall_mem_singleton, GenerationError.isEndless_inDeclaration]
    rintro ⟨name, ⟨⟩⟩
  exact ⟨c, hcompile, ⟨0, .uses hget huses⟩, out, hout, hends,
    Compilation.generate_eq_of_generateWithin hcompile hout hends, hfailures⟩

end ResponseTypes
