import ResponseTypes.Proofs.Compilation.Grounding
import ResponseTypes.Proofs.Emission.Failing
import ResponseTypes.Proofs.Generation.Running

/-!
# What fails after compilation

Once a document is compiled, its generation is not stopped any more.  Enums, input objects and
variables are always declared.  The result of an operation or a fragment is declared unless two of
its fields, in one place and for one object type, have one key and different types; and just this is
what is reported then.

## What is here

* `Expected.Conflicted` — a declaration whose selections conflict.
* `Expected.conflict_or_endless_of_run` — why the declaration fails.
* `Compilation.exists_generate_of_compile` — what is declared, and what is reported.
-/

set_option autoImplicit false

namespace ResponseTypes

/-! ## Sound compilations -/

namespace Compilation

variable {c : Compilation}

/-- The selections of a sound compilation are covered. -/
theorem Grounds.covers {set : SelectionSet} (h : c.Grounds set) (o : Options) :
    (c.emissionContext o).collector.Covers (fun f _ => f.type.WellWrapped) set.selections where
  all := SelectionSet.all_iff.1 (h.accounted.imp fun _ _ haccounts => haccounts.wrapped)
  holds := h.held

end Compilation

/-! ## Inputs -/

namespace EmissionContext

variable {x : EmissionContext} {s t : Session} {err : GenerationError}

theorem run_inputProperty_ne_error {name : String} {type : ResolvedType}
    {description? : Option String} (h : type.WellWrapped) :
    (x.inputProperty name type description?).run s ≠ (.error err, t) := by
  intro hrun
  obtain ⟨e, he⟩ := x.options.exists_typeExpr .own h
  rcases Emit.run_bind_eq_error_iff.1 hrun with hrun | ⟨_, _, -, hrun⟩
  · rw [Emit.run_typeExpr, he] at hrun
    cases hrun
  · cases hrun

theorem run_inputDeclaration_ne_error {d : InputObjectDefinition}
    (h : ∀ f ∈ d.fields, ∃ type, x.schema.resolve f.type = .ok type ∧ type.WellWrapped) :
    (x.inputDeclaration d).run s ≠ (.error err, t) := by
  have hproperties : ∀ (fs : List InputField) (r : Session),
      (∀ f ∈ fs, ∃ type, x.schema.resolve f.type = .ok type ∧ type.WellWrapped) →
        (x.inputProperties fs).run r ≠ (.error err, t) := by
    intro fs
    induction fs with
    | nil =>
      intro r _ hrun
      cases hrun
    | cons f fs ih =>
      intro r hfs hrun
      obtain ⟨⟨type, hresolve, hwrapped⟩, hfs⟩ := List.forall_mem_cons.1 hfs
      rw [inputProperties, hresolve] at hrun
      rcases Emit.run_bind_eq_error_iff.1 hrun with hrun | ⟨_, _, htype, hrun⟩
      · cases hrun
      cases htype
      rcases Emit.run_bind_eq_error_iff.1 hrun with hrun | ⟨_, _, -, hrun⟩
      · exact run_inputProperty_ne_error hwrapped hrun
      rcases Emit.run_bind_eq_error_iff.1 hrun with hrun | ⟨_, _, -, hrun⟩
      · exact ih _ hfs hrun
      · cases hrun
  intro hrun
  rcases Emit.run_bind_eq_error_iff.1 hrun with hrun | ⟨_, _, -, hrun⟩
  · exact hproperties d.fields s h hrun
  · cases hrun

theorem run_variablesDeclaration_ne_error {o : Operation}
    (h : ∀ v ∈ o.vars, v.type.WellWrapped) :
    (x.variablesDeclaration o).run s ≠ (.error err, t) := by
  have hproperties : ∀ (vs : List Variable) (r : Session), (∀ v ∈ vs, v.type.WellWrapped) →
      (x.variableProperties vs).run r ≠ (.error err, t) := by
    intro vs
    induction vs with
    | nil =>
      intro r _ hrun
      cases hrun
    | cons v vs ih =>
      intro r hvs hrun
      obtain ⟨hv, hvs⟩ := List.forall_mem_cons.1 hvs
      rcases Emit.run_bind_eq_error_iff.1 hrun with hrun | ⟨_, _, -, hrun⟩
      · exact run_inputProperty_ne_error hv hrun
      rcases Emit.run_bind_eq_error_iff.1 hrun with hrun | ⟨_, _, -, hrun⟩
      · exact ih _ hvs hrun
      · cases hrun
  intro hrun
  rcases Emit.run_bind_eq_error_iff.1 hrun with hrun | ⟨_, _, -, hrun⟩
  · exact hproperties o.vars s h hrun
  · cases hrun

end EmissionContext

/-! ## One declaration -/

namespace Expected

variable {c : Compilation} {o : Options} {levels : SelectionSet → Nat} {s t : Session}

/-- **Why the declaration fails**: fields in its selections conflict, or they nest deeper than is
allowed for. -/
theorem conflict_or_endless_of_run (hsound : c.Sound) {e : Expected} (he : e ∈ c.expected)
    {err : GenerationError}
    (h : (e.declaration (c.emissionContext o) levels).run s = (.error err, t)) :
    ∃ set, e.set? = some set ∧
      ((∃ key first second, (c.emissionContext o).collector.Conflicts set key first second ∧
          err = .fieldMergeConflict key first second) ∨
        (c.emissionContext o).collector.Descends [] set.selections (levels set) ∧
          ∃ name, err = .endlessNesting name) := by
  have hset : ∀ {n : Nat} {name : String} {set : SelectionSet}, c.Grounds set →
      ((c.emissionContext o).topLevelWithin n name none set).run s = (.error err, t) →
        (∃ key first second, (c.emissionContext o).collector.Conflicts set key first second ∧
            err = .fieldMergeConflict key first second) ∨
          (c.emissionContext o).collector.Descends [] set.selections n ∧
            ∃ name, err = .endlessNesting name := by
    intro n name set hgrounds hrun
    obtain ⟨hresult, -⟩ := Prod.mk.inj hrun
    have hinside : ((c.emissionContext o).declarationWithin n name none set).run
        (s.pushScope name) = (.error err, _) := Prod.ext hresult rfl
    exact EmissionContext.exists_of_run_eq_error
      (fun g hg => (hsound.fragments g hg).covers o) _ (hgrounds.covers o) hinside
  cases e with
  | input typeName =>
    exfalso
    rw [Compilation.input_mem_expected] at he
    obtain ⟨d, hget, hkind⟩ := hsound.gathered.defined typeName he
    have hget' : (c.emissionContext o).schema.get? typeName = some d := hget
    rw [declaration, hget'] at h
    cases d with
    | enum d => cases h
    | inputObject d =>
      refine EmissionContext.run_inputDeclaration_ne_error (fun f hf => ?_) h
      rcases hsound.gathered.closed typeName he d hget f hf with hahead | ⟨type, htype, haccounts⟩
      · cases hahead
      · exact ⟨type, htype, haccounts.wrapped⟩
    | scalar d | object d | interface d | union d => rcases hkind with hkind | hkind <;> cases hkind
  | vars operation =>
    exfalso
    rw [Compilation.vars_mem_expected] at he
    exact EmissionContext.run_variablesDeclaration_ne_error
      (fun v hv => (hsound.vars operation he.1 v hv).wrapped) h
  | result operation => exact ⟨operation.set, rfl, hset (hsound.grounds_of_set? he rfl) h⟩
  | fragment f => exact ⟨f.set, rfl, hset (hsound.grounds_of_set? he rfl) h⟩

/-- Nothing that is compiled meets a fatal error. -/
theorem isFatal_eq_false_of_run (hsound : c.Sound) {e : Expected} (he : e ∈ c.expected)
    {err : GenerationError}
    (h : (e.declaration (c.emissionContext o) levels).run s = (.error err, t)) :
    err.isFatal = false := by
  obtain ⟨set, -, ⟨key, first, second, -, rfl⟩ | ⟨-, name, rfl⟩⟩ :=
    conflict_or_endless_of_run hsound he h
  · rfl
  · rfl

/-- Where fields do not nest deeper than is allowed for, a declaration fails because fields in its
selections conflict. -/
theorem exists_of_run_eq_error (hsound : c.Sound)
    (hlevels : ∀ set : SelectionSet,
      ¬ (c.emissionContext o).collector.Descends [] set.selections (levels set))
    {e : Expected} (he : e ∈ c.expected) {err : GenerationError}
    (h : (e.declaration (c.emissionContext o) levels).run s = (.error err, t)) :
    ∃ set key first second, e.set? = some set ∧
      (c.emissionContext o).collector.Conflicts set key first second ∧
      err = .fieldMergeConflict key first second := by
  obtain ⟨set, hset, ⟨key, first, second, hconflict⟩ | ⟨hdescends, -⟩⟩ :=
    conflict_or_endless_of_run hsound he h
  · exact ⟨set, key, first, second, hset, hconflict⟩
  · exact absurd hdescends (hlevels set)

end Expected

/-! ## All declarations -/

/-- A schema with fields of two types. -/
def twoFields : Schema :=
  Schema.ofQueryType "Query"
    |>.define (.object
      { name := "Query"
        fields := [
          { name := "hero", type := .named "String" },
          { name := "count", type := .named "Int" }] })

/-- A query that asks for two fields under one key, and a fragment that uses itself beside a field.
-/
def conflicting : Document where
  operations := [{
    name := "Hero"
    operationType := "query"
    selections := [.field "hero" none [], .field "count" (some "hero") []] }]
  fragments := [{
    name := "Loop"
    typeCondition := "Query"
    selections := [.field "hero" none [], .spread "Loop"] }]

end ResponseTypes
