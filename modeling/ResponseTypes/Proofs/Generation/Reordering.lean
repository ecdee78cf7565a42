import ResponseTypes.Proofs.Emission.Reordering
import ResponseTypes.Proofs.Generation.Ending
import ResponseTypes.Proofs.Generation.Failing
import ResponseTypes.Proofs.Generation.Naming
import ResponseTypes.Proofs.Generation.Outcomes

/-!
# The order of the fragments and the declarations of operations

Generation starts with all expected names taken, in whatever order; the enums and input objects that
follow take no more.  So when it comes to the operations, the sessions of a document and of the same
document with its fragments in another order are alike, and the same is declared and reported for
every operation.  The fragments come last, and what they are called inside may well depend on their
order.

## What is here

* `alike_afterAll_inputs` — enums and input objects take no names.
* `Expected.declaration_reorder` and `outcomes_reorder` — the same declarations, from the fragments
  in another order.
* `Compilation.operationOutcomes` — what becomes of the declarations of operations.
* `Output.SameOperations` and `sameOperations_of_perm` — documents with their fragments in another
  order.
-/

set_option autoImplicit false

namespace ResponseTypes

/-! ## Sessions after the inputs -/

/-- After enums and input objects the same names are taken as before them. -/
theorem alike_afterAll_inputs (x : EmissionContext) (levels : SelectionSet → Nat)
    (types : List String) (s : Session) : s.Alike (afterAll x levels (types.map .input) s) := by
  induction types generalizing s with
  | nil => exact .refl s
  | cons typeName types ih =>
    refine Session.Alike.trans ?_ (ih ((Expected.input typeName).after x levels s))
    refine ⟨fun name => ?_, (Expected.after_scope).symm⟩
    have hnames : (((Expected.input typeName).declaration x levels).run s).2.names = s.names := by
      rw [Expected.declaration]
      split
      · rfl
      · exact EmissionContext.respects_inputDeclaration Session.tracksTypes_names _ s
      · rfl
    rw [Expected.after_names, hnames]

/-! ## Fragments in another order -/

/-- Declarations do not depend on the order of the fragments, if their names are different. -/
theorem Expected.declaration_reorder {x : EmissionContext} {fragments : FragmentRegistry}
    (hperm : x.fragments.Perm fragments) (hnodup : x.fragments.names.Nodup)
    (levels : SelectionSet → Nat) (e : Expected) :
    e.declaration (x.reorder fragments) levels = e.declaration x levels := by
  cases e with
  | input typeName =>
    simp only [declaration, x.inputDeclaration_reorder]
    rfl
  | vars o => exact x.variablesDeclaration_reorder fragments o
  | result o => exact x.topLevelWithin_reorder hperm hnodup _ o.typeName none o.set
  | fragment f => exact x.topLevelWithin_reorder hperm hnodup _ f.name none f.set

theorem outcomes_reorder {x : EmissionContext} {fragments : FragmentRegistry}
    (hperm : x.fragments.Perm fragments) (hnodup : x.fragments.names.Nodup)
    (levels : SelectionSet → Nat) (es : List Expected) (s : Session) :
    outcomes (x.reorder fragments) levels es s = outcomes x levels es s := by
  induction es generalizing s with
  | nil => rfl
  | cons e es ih =>
    have hdeclaration := e.declaration_reorder hperm hnodup levels
    rw [outcomes, outcomes, ih, Expected.outcome, Expected.after, hdeclaration]
    rfl

namespace Compilation

/-- What becomes of the declarations of operations. -/
def operationOutcomes (c : Compilation) (levels : SelectionSet → Nat) (o : Options) :
    List Outcome :=
  (c.outcomes levels o).filter fun r => r.expected.isOfOperation

theorem isOfOperation_of_mem_ofOperation {operations : List Operation} {e : Expected}
    (h : e ∈ operations.flatMap Expected.ofOperation) : e.isOfOperation = true := by
  obtain ⟨o, -, he⟩ := List.mem_flatMap.1 h
  rcases Expected.mem_ofOperation.1 he with ⟨rfl, -⟩ | rfl
  · rfl
  · rfl

/-- Operations are declared as they would be in the first session, for what comes before them takes
no name. -/
theorem operationOutcomes_eq (c : Compilation) (levels : SelectionSet → Nat) (o : Options) :
    c.operationOutcomes levels o = ResponseTypes.outcomes (c.emissionContext o) levels
      (c.operations.flatMap Expected.ofOperation) (c.openSession o) := by
  have hnone : ∀ {es : List Expected} {s : Session}, (∀ e ∈ es, e.isOfOperation = false) →
      (ResponseTypes.outcomes (c.emissionContext o) levels es s).filter
        (fun r => r.expected.isOfOperation) = [] := by
    intro es s h
    refine List.filter_eq_nil_iff.2 fun r hr => ?_
    obtain ⟨e, he, s', rfl⟩ := exists_of_mem_outcomes hr
    exact Bool.not_eq_true _ ▸ h e he
  have hinputs : ∀ e ∈ c.typesUsed.map Expected.input, e.isOfOperation = false := by
    simp [Expected.isOfOperation]
  have hfragments : ∀ e ∈ c.fragments.map Expected.fragment, e.isOfOperation = false := by
    simp [Expected.isOfOperation]
  rw [operationOutcomes, outcomes, expected, outcomes_append, outcomes_append, List.filter_append,
    List.filter_append, hnone hinputs, hnone hfragments, List.nil_append, List.append_nil,
    outcomes_congr (alike_afterAll_inputs _ levels c.typesUsed (c.openSession o)).symm,
    List.filter_eq_self]
  intro r hr
  obtain ⟨e, he, s', rfl⟩ := exists_of_mem_outcomes hr
  exact isOfOperation_of_mem_ofOperation he

/-- One outcome for the variables of each operation, if it has any, and one for its result. -/
theorem map_expected_operationOutcomes (c : Compilation) (levels : SelectionSet → Nat)
    (o : Options) : (c.operationOutcomes levels o).map Outcome.expected
      = c.operations.flatMap Expected.ofOperation := by
  rw [operationOutcomes_eq, map_expected_outcomes]

namespace Reordered

variable {c c' : Compilation}

theorem emissionContext_eq (h : c.Reordered c') (o : Options) :
    c'.emissionContext o = (c.emissionContext o).reorder c'.fragments := by
  rw [emissionContext, h.schema]
  rfl

/-- The same declarations are expected, in another order. -/
theorem expected_perm (h : c.Reordered c') : c.expected.Perm c'.expected := by
  rw [expected, expected, h.operations]
  exact ((h.typesUsed.map _).append (.refl _)).append (h.fragments.map _)

/-- The sessions before the first declarations are alike. -/
theorem alike_openSession (h : c.Reordered c') (o : Options) :
    (c.openSession o).Alike (c'.openSession o) where
  names := by
    intro name
    refine NameRegistry.mem_taken_insertAll.trans ?_
    rw [(h.expected_perm.map Expected.name).mem_iff]
    exact NameRegistry.mem_taken_insertAll.symm
  scope := by rw [openSession_scope, openSession_scope]

/-- **The same becomes of the declarations of operations.** -/
theorem operationOutcomes_eq (h : c.Reordered c') (levels : SelectionSet → Nat) (o : Options) :
    c.operationOutcomes levels o = c'.operationOutcomes levels o := by
  rw [Compilation.operationOutcomes_eq, Compilation.operationOutcomes_eq, h.operations,
    h.emissionContext_eq, outcomes_reorder h.fragments h.nodup]
  exact outcomes_congr (h.alike_openSession o) _

end Reordered
end Compilation

/-- Two outputs have the same of operations. -/
structure Output.SameOperations (out out' : Output) (c c' : Compilation)
    (levels : SelectionSet → Nat) (o : Options) : Prop where
  /-- Each output holds what has become of the declarations of its document. -/
  records : out.Records (c.outcomes levels o)
  records' : out'.Records (c'.outcomes levels o)
  /-- The same has become of the declarations of operations, all that is nested in them included. -/
  outcomes : c.operationOutcomes levels o = c'.operationOutcomes levels o
  /-- These are the declarations of the variables and of the result of each operation. -/
  complete : (c.operationOutcomes levels o).map Outcome.expected
    = c.operations.flatMap Expected.ofOperation
  /-- Levels are wanting in both generations or in neither. -/
  endless : (∃ err ∈ out.failures, err.IsEndless) ↔ ∃ err ∈ out'.failures, err.IsEndless

/-- Levels are wanting in the declarations of both documents or of neither. -/
theorem Compilation.Reordered.endless_iff {c c' : Compilation} (h : c.Reordered c')
    (levels : SelectionSet → Nat) (o : Options) :
    (∃ r ∈ c.outcomes levels o, r.IsEndless) ↔ ∃ r ∈ c'.outcomes levels o, r.IsEndless := by
  rw [outcomes, outcomes, h.emissionContext_eq, outcomes_reorder h.fragments h.nodup,
    exists_endless_iff, exists_endless_iff]
  simp only [h.expected_perm.mem_iff]

/-- As many levels are allowed for in both documents. -/
theorem Compilation.Reordered.levelsFor_eq {c c' : Compilation} (h : c.Reordered c') (o : Options) :
    (c'.emissionContext o).levelsFor = (c.emissionContext o).levelsFor := by
  rw [h.emissionContext_eq]
  exact (c.emissionContext o).levelsFor_reorder h.fragments

/-- A compiled document can be generated, though declarations may be left out. -/
theorem Compilation.Sound.exists_generate {c : Compilation} (h : c.Sound)
    (levels : SelectionSet → Nat) (o : Options) : ∃ out, c.generateWithin levels o = .ok out :=
  exists_generate_eq_ok fun _ he _ _ _ hrun => Expected.isFatal_eq_false_of_run h he hrun

/-- **The order of the fragments does not matter to operations.**  If no two fragments have one
name, a document can be compiled with its fragments in another order if it can be in this one.  The
operations are the same then, the fragments are the same but for their order, and so are the types
used.  In the outputs the same declarations are made, and the same failures are reported, for the
variables and the result of every operation: whatever the number of levels that is allowed for, and
so with that which is, for it is the same. -/
theorem sameOperations_of_perm {schema : Schema} {document : Document}
    {fragments : List FragmentNode} {compiled : Options}
    (hperm : document.fragments.Perm fragments)
    (hnodup : (document.fragments.map FragmentNode.name).Nodup) :
    ((∃ c, compile schema document compiled = .ok c) ↔
        ∃ c', compile schema { document with fragments } compiled = .ok c') ∧
      ∀ c c', compile schema document compiled = .ok c →
        compile schema { document with fragments } compiled = .ok c' →
          c.Reordered c' ∧ ∀ used,
            (∀ levels, ∃ out out', c.generateWithin levels used = .ok out ∧
              c'.generateWithin levels used = .ok out' ∧
              out.SameOperations out' c c' levels used) ∧
            (c'.emissionContext used).levelsFor = (c.emissionContext used).levelsFor := by
  constructor
  · constructor
    · rintro ⟨c, hcompile⟩
      obtain ⟨c', hcompile', -⟩ := reordered_of_compile hperm hnodup hcompile
      exact ⟨c', hcompile'⟩
    · rintro ⟨c', hcompile'⟩
      have hback : ({ document with fragments } : Document).fragments.Perm document.fragments :=
        hperm.symm
      obtain ⟨c, hcompile, -⟩ := reordered_of_compile hback
        ((hperm.map FragmentNode.name).nodup_iff.1 hnodup) hcompile'
      exact ⟨c, hcompile⟩
  · intro c c' hcompile hcompile'
    obtain ⟨_, hcompiled, h⟩ := reordered_of_compile hperm hnodup hcompile
    cases hcompile'.symm.trans hcompiled
    refine ⟨h, fun used => ⟨fun levels => ?_, h.levelsFor_eq used⟩⟩
    obtain ⟨out, hout⟩ := (sound_of_compile hcompile).exists_generate levels used
    obtain ⟨out', hout'⟩ := (sound_of_compile hcompile').exists_generate levels used
    have hrecords := c.records_of_generate hout
    have hrecords' := c'.records_of_generate hout'
    exact ⟨out, out', hout, hout',
      { records := hrecords
        records' := hrecords'
        outcomes := h.operationOutcomes_eq levels used
        complete := c.map_expected_operationOutcomes levels used
        endless := by rw [hrecords.endless_iff, hrecords'.endless_iff, h.endless_iff] }⟩

/-- Company may come before its tricks or after them. -/
theorem sameOperations_of_perm_company :
    ((company [.spread "Tricks"]).fragments.map FragmentNode.name).Nodup ∧
      ∃ c c', compile shelter (company [.spread "Tricks"]) {} = .ok c ∧
        compile shelter { company [.spread "Tricks"] with
          fragments := (company [.spread "Tricks"]).fragments.reverse } {} = .ok c' ∧
        c.fragments.names = ["Company", "Tricks"] ∧ c'.fragments.names = ["Tricks", "Company"] ∧
        c.Reordered c' ∧ ∀ used,
          (∀ levels, ∃ out out', c.generateWithin levels used = .ok out ∧
            c'.generateWithin levels used = .ok out' ∧
            out.SameOperations out' c c' levels used) ∧
          (c'.emissionContext used).levelsFor = (c.emissionContext used).levelsFor := by
  have hnodup : ((company [.spread "Tricks"]).fragments.map FragmentNode.name).Nodup := by decide
  obtain ⟨c, hcompile, hnames⟩ : ∃ c, compile shelter (company [.spread "Tricks"]) {} = .ok c ∧
      c.fragments.names = ["Company", "Tricks"] := ⟨_, by cbv, by cbv⟩
  obtain ⟨c', hcompile', hnames'⟩ : ∃ c', compile shelter { company [.spread "Tricks"] with
      fragments := (company [.spread "Tricks"]).fragments.reverse } {} = .ok c' ∧
      c'.fragments.names = ["Tricks", "Company"] := ⟨_, by cbv, by cbv⟩
  obtain ⟨-, hsame⟩ :=
    sameOperations_of_perm (List.reverse_perm (company [.spread "Tricks"]).fragments).symm hnodup
  exact ⟨hnodup, c, c', hcompile, hcompile', hnames, hnames', hsame c c' hcompile hcompile'⟩

end ResponseTypes
