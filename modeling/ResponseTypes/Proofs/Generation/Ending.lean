import ResponseTypes.Proofs.Compilation.Conforming
import ResponseTypes.Proofs.Emission.Ending
import ResponseTypes.Proofs.Generation.Running

/-!
# Generation ends

Declarations end by themselves where uses of fragments are not merged, whatever fragments come back
to themselves, and where they are merged unless a fragment comes back to itself through a field.  So
the number of levels that is allowed for is never reached: nothing fails for want of levels, neither
the generation nor a single declaration.

## What is here

* `Expected.not_isEndless_of_run` — one declaration.
* `exists_of_generateAll_eq_error` — where a generation is stopped.
* `Compilation.GenerationEnds` and `Compilation.generationEnds` — every way down ends, and the count
  of levels is of no account.
-/

set_option autoImplicit false

namespace ResponseTypes

variable {x : EmissionContext} {levels : SelectionSet → Nat} {s t : Session}
  {err : GenerationError}

/-! ## One declaration -/

namespace EmissionContext

theorem not_isEndless_of_run_inputProperty {name : String} {type : ResolvedType}
    {description? : Option String}
    (h : (x.inputProperty name type description?).run s = (.error err, t)) : ¬ err.IsEndless := by
  rcases Emit.run_bind_eq_error_iff.1 h with h | ⟨_, _, -, h⟩
  · rw [Emit.run_typeExpr] at h
    split at h
    · cases h
    · rename_i e he
      cases h
      exact Options.not_isEndless_of_typeExpr he
  · cases h

theorem not_isEndless_of_run_inputProperties {fs : List InputField}
    (h : (x.inputProperties fs).run s = (.error err, t)) : ¬ err.IsEndless := by
  induction fs generalizing s with
  | nil => cases h
  | cons f fs ih =>
    rw [inputProperties] at h
    rcases Emit.run_bind_eq_error_iff.1 h with h | ⟨_, _, -, h⟩
    · rw [Emit.run_ofExcept] at h
      cases hresolve : x.schema.resolve f.type with
      | ok type =>
        rw [hresolve] at h
        cases h
      | error e =>
        rw [hresolve] at h
        cases h
        exact GenerationError.not_isEndless_schema e
    rcases Emit.run_bind_eq_error_iff.1 h with h | ⟨_, _, -, h⟩
    · exact not_isEndless_of_run_inputProperty h
    rcases Emit.run_bind_eq_error_iff.1 h with h | ⟨_, _, -, h⟩
    · exact ih h
    · cases h

theorem not_isEndless_of_run_variableProperties {vs : List Variable}
    (h : (x.variableProperties vs).run s = (.error err, t)) : ¬ err.IsEndless := by
  induction vs generalizing s with
  | nil => cases h
  | cons v vs ih =>
    rw [variableProperties] at h
    rcases Emit.run_bind_eq_error_iff.1 h with h | ⟨_, _, -, h⟩
    · exact not_isEndless_of_run_inputProperty h
    rcases Emit.run_bind_eq_error_iff.1 h with h | ⟨_, _, -, h⟩
    · exact ih h
    · cases h

end EmissionContext

section Finite

variable (hlevels : ∀ set : SelectionSet,
  ¬ x.collector.Descends [] set.selections (levels set))

include hlevels

/-- No expected declaration fails for want of levels. -/
theorem Expected.not_isEndless_of_run {e : Expected}
    (h : (e.declaration x levels).run s = (.error err, t)) : ¬ err.IsEndless := by
  have htop : ∀ {name : String} {set : SelectionSet} {s t : Session},
      (x.topLevelWithin (levels set) name none set).run s = (.error err, t) →
        ¬ err.IsEndless := by
    intro name set s t h
    exact EmissionContext.not_isEndless_of_run (hlevels set) (Prod.ext (Prod.mk.inj h).1 rfl)
  cases e with
  | input typeName =>
    rw [declaration] at h
    split at h
    · cases h
    · rcases Emit.run_bind_eq_error_iff.1 h with h | ⟨_, _, -, h⟩
      · exact EmissionContext.not_isEndless_of_run_inputProperties h
      · cases h
    · cases h
      exact GenerationError.not_isEndless_schema _
  | vars o =>
    rcases Emit.run_bind_eq_error_iff.1 h with h | ⟨_, _, -, h⟩
    · exact EmissionContext.not_isEndless_of_run_variableProperties h
    · cases h
  | result o => exact htop h
  | fragment f => exact htop h

/-! ## All declarations -/

omit hlevels in
/-- **Where a generation is stopped**: at a declaration that fails. -/
theorem exists_of_generateAll_eq_error {es : List Expected} {out : Output}
    (h : generateAll x levels es s out = .error err) :
    ∃ e ∈ es, ∃ r err' r', (e.declaration x levels).run r = (.error err', r') ∧
      err = .inDeclaration e.name err' := by
  induction es generalizing s out with
  | nil => cases h
  | cons e es ih =>
    have hrest : ∀ {s out}, generateAll x levels es s out = .error err →
        ∃ e' ∈ e :: es, ∃ r err' r', (e'.declaration x levels).run r = (.error err', r') ∧
          err = .inDeclaration e'.name err' := by
      intro s out h
      obtain ⟨e', he', hfails⟩ := ih h
      exact ⟨e', List.mem_cons_of_mem e he', hfails⟩
    rw [generateAll] at h
    split at h
    · exact hrest h
    · rename_i err' r hd
      simp only at h
      split at h
      · cases h
        exact ⟨e, List.mem_cons_self, s, err', r, hd, rfl⟩
      · exact hrest h

/-- Nothing that is reported along a run has failed for want of levels. -/
theorem Generates.not_isEndless {es : List Expected} {ds : List Declaration}
    {errs : List GenerationError} (h : Generates x levels es s ds errs t) :
    ∀ err ∈ errs, ¬ err.IsEndless := by
  induction h with
  | nil => exact fun _ h => absurd h List.not_mem_nil
  | built _ _ ih => exact ih
  | failed hd _ _ ih =>
    refine List.forall_mem_cons.2 ⟨?_, ih⟩
    rw [GenerationError.isEndless_inDeclaration]
    exact Expected.not_isEndless_of_run hlevels hd

end Finite

/-- The generation of a compiled document ends, without any count of levels. -/
structure Compilation.GenerationEnds (c : Compilation) (o : Options) : Prop where
  /-- No way from a selection set to those that it calls for goes on without end. -/
  ways : ∀ set, Acc (fun below above => (c.emissionContext o).CallsFor above below) set
  /-- Selection sets are declared in the one way in which each is declared by means of those that it
  calls for. -/
  selections : ∀ declare : String → Option String → SelectionSet → Emit Declaration,
    (∀ name description? set, declare name description? set
      = (c.emissionContext o).declarationBy (fun name below => declare name none below) name
          description? set)
      ↔ declare = (c.emissionContext o).selectionDeclaration
  /-- The generation is not stopped for want of levels. -/
  stopped : ∀ err, c.generate o = .error err → ¬ err.IsEndless
  /-- No declaration is left out for want of levels. -/
  leftOut : ∀ out, c.generate o = .ok out → ∀ err ∈ out.failures, ¬ err.IsEndless

/-- **Generation ends** where uses of fragments are not merged, or no fragment comes back to itself
through a field. -/
theorem Compilation.generationEnds {c : Compilation} {o : Options}
    (hfinite : o.mergesFragments = true → ∀ name, ¬ c.fragments.NestsInItself name) :
    c.GenerationEnds o := by
  have hfinite' : (c.emissionContext o).options.mergesFragments = true →
      ∀ name, ¬ (c.emissionContext o).fragments.NestsInItself name := hfinite
  have hlevels : ∀ set : SelectionSet, ¬ (c.emissionContext o).collector.Descends []
      set.selections ((c.emissionContext o).levelsFor set) :=
    EmissionContext.not_descends_nestingBound hfinite'
  refine ⟨fun set => ?ways, fun declare => ⟨fun h => ?unique, ?solves⟩, fun err h => ?stopped,
    fun out h => ?leftOut⟩
  case ways =>
    exact EmissionContext.acc_callsFor (hlevels set)
  case unique =>
    funext name description? set
    exact EmissionContext.eq_selectionDeclaration hfinite' h name description? set
  case solves =>
    rintro rfl
    exact EmissionContext.selectionDeclaration_eq hfinite'
  case stopped =>
    rw [generate, generateWithin] at h
    cases hall : generateAll (c.emissionContext o) (c.emissionContext o).levelsFor c.expected
      (c.openSession o) {} with
    | ok result =>
      rw [hall] at h
      cases h
    | error err' =>
      rw [hall] at h
      cases h
      obtain ⟨e, -, r, err', r', hrun, rfl⟩ := exists_of_generateAll_eq_error hall
      rw [GenerationError.isEndless_inDeclaration]
      exact Expected.not_isEndless_of_run hlevels hrun
  case leftOut =>
    obtain ⟨t, hrun, -⟩ := generates_of_generate h
    exact hrun.not_isEndless hlevels

/-! ## Pets in company -/

/-- The friends of pets, and the friends of these.  Of a friend the selections are made that are
given. -/
def company (ofFriends : List SelectionNode) : Document where
  operations := [{
    name := "Company"
    operationType := "query"
    selections := [.field "pets" none [.spread "Company"]] }]
  fragments := [
    { name := "Company", typeCondition := "Pet"
      selections := [.field "friend" none ofFriends, .spread "Company"] },
    { name := "Tricks", typeCondition := "Dog"
      selections := [.field "tricks" none [], .spread "Tricks"] }]

/-- Where tricks stand among the fragments: below company. -/
def tricksBelow (name : String) : Nat :=
  if name = "Tricks" then 0 else 1

/-- Fragments that use themselves beside their fields can be merged; one that uses itself inside a
field cannot, but need not be. -/
theorem generationEnds_company :
    (∃ c, compile shelter (company [.spread "Tricks"]) {} = .ok c ∧
      c.GenerationEnds { mergesFragments := true }) ∧
    ∃ c, compile shelter (company [.spread "Company"]) {} = .ok c ∧
      c.fragments.NestsInItself "Company" ∧ c.GenerationEnds { mergesFragments := false } := by
  constructor
  · obtain ⟨c, hcompile, f, g, hfragments, hf, hg⟩ :
        ∃ c, compile shelter (company [.spread "Tricks"]) {} = .ok c ∧ ∃ f g, c.fragments = [f, g] ∧
          (∀ k name, Selection.Uses f.set.selections k name →
            tricksBelow name + k ≤ tricksBelow f.name) ∧
          ∀ k name, Selection.Uses g.set.selections k name →
            tricksBelow name + k ≤ tricksBelow g.name :=
      ⟨_, by cbv, _, _, by cbv, by simp [tricksBelow]; grind, by simp [tricksBelow]⟩
    refine ⟨c, hcompile, Compilation.generationEnds fun _ => ?_⟩
    refine FragmentRegistry.not_nestsInItself_of_rank tricksBelow ?_
    simpa [hfragments] using ⟨hf, hg⟩
  · obtain ⟨c, hcompile, f, hget, huses⟩ :
        ∃ c, compile shelter (company [.spread "Company"]) {} = .ok c ∧ ∃ f,
          c.fragments.get? "Company" = some f ∧ Selection.Uses f.set.selections 1 "Company" :=
      ⟨_, by cbv, _, by cbv, by simp⟩
    exact ⟨c, hcompile, ⟨0, .uses hget huses⟩,
      Compilation.generationEnds fun h => absurd h Bool.false_ne_true⟩

end ResponseTypes
