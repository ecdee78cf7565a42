import ResponseTypes.Proofs.Compilation.Grounding
import ResponseTypes.Proofs.Emission.Naming
import ResponseTypes.Proofs.Generation.Describing

/-!
# Runs of a generation

A generation that is not stopped has tried everything that is expected, in order: what could be
built is in the output, and what failed is reported.

## What is here

* `Generates` — runs of a generation; `Compilation.generates_of_generate` — the run behind an
  output; `generate_eq_ok_iff` — the stages before it.
* `Output.unresolved` — the scalars that are reported; `Compilation.input_mem_expected` and its
  like — what is expected.
* `Generates.exists_sublist` — the declarations in the output have the expected names, in order.
* `exists_generate_eq_ok` — a generation that meets no fatal error has an output.
-/

set_option autoImplicit false

namespace ResponseTypes

/-! ## What is reported -/

/-- The custom scalar that is reported. -/
def Diagnostic.scalar? : Diagnostic → Option String
  | .unresolvedScalar name => some name
  | .declarationFailed _ => none

/-- The custom scalars that are reported. -/
def Output.unresolved (o : Output) : List String :=
  o.diagnostics.filterMap Diagnostic.scalar?

/-! ## What is expected -/

namespace Expected

theorem mem_ofOperation {e : Expected} {o : Operation} :
    e ∈ ofOperation o ↔ e = .vars o ∧ o.vars ≠ [] ∨ e = .result o := by
  rw [ofOperation]
  split
  · rename_i hempty
    simp [List.isEmpty_iff.1 hempty]
  · rename_i hvars
    simp [by simpa using hvars]

end Expected

namespace Compilation

variable {c : Compilation}

theorem input_mem_expected {name : String} : .input name ∈ c.expected ↔ name ∈ c.typesUsed := by
  simp [expected, Expected.mem_ofOperation]

theorem vars_mem_expected {o : Operation} :
    .vars o ∈ c.expected ↔ o ∈ c.operations ∧ o.vars ≠ [] := by
  simp [expected, Expected.mem_ofOperation]

theorem result_mem_expected {o : Operation} : .result o ∈ c.expected ↔ o ∈ c.operations := by
  simp [expected, Expected.mem_ofOperation]

theorem fragment_mem_expected {f : Fragment} : .fragment f ∈ c.expected ↔ f ∈ c.fragments := by
  simp [expected, Expected.mem_ofOperation]

/-- What declarations are generated from is grounded. -/
theorem Sound.grounds_of_set? (h : c.Sound) {e : Expected} (he : e ∈ c.expected)
    {set : SelectionSet} (hset : e.set? = some set) : c.Grounds set := by
  cases e with
  | input _ | vars _ => cases hset
  | result o =>
    cases hset
    exact h.operations o (result_mem_expected.1 he)
  | fragment f =>
    cases hset
    exact h.fragments f (fragment_mem_expected.1 he)

end Compilation

/-! ## Sessions between declarations -/

namespace Session

theorem enqueue_eq (s : Session) (d : Declaration) :
    s.enqueue d = { s with
      printer := { s.printer with
        queue := s.printer.queue
          ++ d.flatten.map fun e => .code (e.shallow.print s.printer.target) } } := by
  rw [enqueue]
  generalize d.flatten = l
  suffices h : ∀ p : Printer,
      l.foldl (fun p e => p.enqueue (.code (e.shallow.print p.target))) p
        = { p with queue := p.queue ++ l.map fun e => .code (e.shallow.print p.target) } by
    rw [h]
  induction l with
  | nil => simp
  | cons e l ih =>
    intro p
    rw [List.foldl_cons, ih]
    simp [Printer.enqueue]

@[simp] theorem enqueue_names (s : Session) (d : Declaration) : (s.enqueue d).names = s.names := by
  rw [enqueue_eq]

@[simp] theorem enqueue_unmapped (s : Session) (d : Declaration) :
    (s.enqueue d).unmapped = s.unmapped := by
  rw [enqueue_eq]

@[simp] theorem enqueue_scope (s : Session) (d : Declaration) :
    (s.enqueue d).printer.scope = s.printer.scope := by
  rw [enqueue_eq]

end Session

/-! ## Runs -/

/-- A run over what is expected, from a session to a session: declarations that could be built, and
the errors of the others. -/
inductive Generates (x : EmissionContext) (levels : SelectionSet → Nat) :
    List Expected → Session → List Declaration → List GenerationError → Session → Prop where
  | nil {s : Session} : Generates x levels [] s [] [] s
  | built {e : Expected} {es : List Expected} {r s t : Session} {d : Declaration}
    {ds : List Declaration} {errs : List GenerationError}
    (hd : (e.declaration x levels).run s = (.ok d, r))
    (hrest : Generates x levels es (r.enqueue d) ds errs t) :
    Generates x levels (e :: es) s (d :: ds) errs t
  | failed {e : Expected} {es : List Expected} {r s t : Session} {err : GenerationError}
    {ds : List Declaration} {errs : List GenerationError}
    (hd : (e.declaration x levels).run s = (.error err, r)) (hfatal : err.isFatal = false)
    (hrest : Generates x levels es r ds errs t) :
    Generates x levels (e :: es) s ds (.inDeclaration e.name err :: errs) t

variable {x : EmissionContext} {levels : SelectionSet → Nat} {es : List Expected} {s t : Session}

theorem generates_of_generateAll {out out' : Output}
    (h : generateAll x levels es s out = .ok (t, out')) :
    ∃ ds errs, Generates x levels es s ds errs t ∧ out'.declarations = out.declarations ++ ds ∧
      out'.diagnostics = out.diagnostics ++ errs.map .declarationFailed := by
  induction es generalizing s out with
  | nil =>
    cases h
    exact ⟨[], [], .nil, (List.append_nil _).symm, (List.append_nil _).symm⟩
  | cons e es ih =>
    rw [generateAll] at h
    split at h
    · rename_i d r hd
      obtain ⟨ds, errs, hrest, hdeclarations, hdiagnostics⟩ := ih h
      refine ⟨d :: ds, errs, .built hd hrest, ?_, hdiagnostics⟩
      rw [hdeclarations, List.append_assoc, List.singleton_append]
    · rename_i err r hd
      simp only at h
      split at h
      · cases h
      · rename_i hfatal
        obtain ⟨ds, errs, hrest, hdeclarations, hdiagnostics⟩ := ih h
        refine ⟨ds, .inDeclaration e.name err :: errs, .failed hd ?_ hrest, hdeclarations, ?_⟩
        · simpa [GenerationError.isFatal] using hfatal
        · rw [hdiagnostics, List.append_assoc, List.singleton_append, List.map_cons]

/-- A document is generated if the schema is valid, and it can be compiled and then generated. -/
theorem generate_eq_ok_iff {schema : Schema} {document : Document} {o : Options} {out : Output} :
    generate schema document o = .ok out ↔ schema.validate = .ok () ∧
      ∃ c, compile schema document o = .ok c ∧ c.generate o = .ok out := by
  rw [generate, bind_eq_ok_iff]
  constructor
  · rintro ⟨⟨⟩, hvalid, h⟩
    exact ⟨CompilationInput.lift_eq_ok_iff.1 hvalid, bind_eq_ok_iff.1 h⟩
  · rintro ⟨hvalid, h⟩
    exact ⟨(), CompilationInput.lift_eq_ok_iff.2 hvalid, bind_eq_ok_iff.2 h⟩

/-- **The run behind an output**: its errors and the scalars it noted are what is reported, and the
file is what is in the queue at its end. -/
theorem Compilation.generates_of_generate {c : Compilation} {o : Options} {out : Output}
    (h : c.generateWithin levels o = .ok out) :
    ∃ t, Generates (c.emissionContext o) levels c.expected (c.openSession o) out.declarations
      out.failures t ∧ out.unresolved = t.unmapped ∧ out.text = t.printer.flush.1 := by
  obtain ⟨⟨t, out'⟩, hall, h⟩ := bind_eq_ok_iff.1 h
  cases h
  obtain ⟨ds, errs, hrun, hdeclarations, hdiagnostics⟩ := generates_of_generateAll hall
  have hfailures :
      (errs.map Diagnostic.declarationFailed).filterMap Diagnostic.failure? = errs := by
    simp [List.filterMap_map, Function.comp_def, Diagnostic.failure?]
  have hnone : ∀ scalars : List String,
      (scalars.map Diagnostic.unresolvedScalar).filterMap Diagnostic.failure? = [] := by
    simp [List.filterMap_map, Function.comp_def, Diagnostic.failure?]
  refine ⟨t, ?_, ?_, rfl⟩
  · simp only [Output.failures, hdiagnostics, hdeclarations, List.filterMap_append, hfailures,
      hnone, List.append_nil, List.nil_append]
    exact hrun
  · simp [Output.unresolved, hdiagnostics, List.filterMap_map, Function.comp_def,
      Diagnostic.scalar?]

/-- A generation that meets no fatal error has an output. -/
theorem exists_generate_eq_ok {c : Compilation} {o : Options}
    (h : ∀ e ∈ c.expected, ∀ s err r,
      (e.declaration (c.emissionContext o) levels).run s = (.error err, r) → err.isFatal = false) :
    ∃ out, c.generateWithin levels o = .ok out := by
  have hall : ∀ es ⊆ c.expected, ∀ s out,
      ∃ result, generateAll (c.emissionContext o) levels es s out = .ok result := by
    intro es
    induction es with
    | nil => exact fun _ s out => ⟨(s, out), rfl⟩
    | cons e es ih =>
      intro hes s out
      obtain ⟨he, hes⟩ := List.cons_subset.1 hes
      rw [generateAll]
      split
      · exact ih hes _ _
      · rename_i err r hd
        have hfatal : (GenerationError.inDeclaration e.name err).isFatal = false :=
          h e he s err r hd
        simp only [hfatal]
        exact ih hes _ _
  obtain ⟨⟨t, out⟩, hresult⟩ := hall c.expected (List.Subset.refl _) (c.openSession o) {}
  exact ⟨_, bind_eq_ok_iff.2 ⟨(t, out), hresult, rfl⟩⟩

/-! ## Names along a run -/

/-- The declaration of a selection set has been built in the scope of its name. -/
theorem exists_builds_of_topLevelWithin {n : Nat} {name : String}
    {description? : Option String} {set : SelectionSet} {d : Declaration}
    (h : (x.topLevelWithin n name description? set).run s = (.ok d, t)) :
    ∃ r, x.Builds name description? set (s.pushScope name) r d ∧ t = r.popScope.2 := by
  obtain ⟨r, hrun, rfl⟩ := Emit.exists_of_run_inScope_eq_ok h
  exact ⟨r, EmissionContext.builds_of_run _ hrun, rfl⟩

/-- A declaration that is built has the expected name. -/
theorem Expected.name_of_declaration {e : Expected} {d : Declaration}
    (h : (e.declaration x levels).run s = (.ok d, t)) : d.name = e.name := by
  cases e with
  | input typeName => exact (input_declaration_spec h).1
  | vars o => exact (vars_declaration_spec h).1
  | result o =>
    obtain ⟨r, ⟨-, -, -⟩, -⟩ := exists_builds_of_topLevelWithin h
    rfl
  | fragment f =>
    obtain ⟨r, ⟨-, -, -⟩, -⟩ := exists_builds_of_topLevelWithin h
    rfl

/-- **The declarations in the output** have the names of some of what is expected, in order. -/
theorem Generates.exists_sublist {ds : List Declaration} {errs : List GenerationError}
    (h : Generates x levels es s ds errs t) :
    ∃ emitted : List Expected, emitted.Sublist es ∧
      ds.map Declaration.name = emitted.map Expected.name := by
  induction h with
  | nil => exact ⟨[], .slnil, rfl⟩
  | @built e _ _ _ _ d _ _ hd _ ih =>
    obtain ⟨emitted, hsublist, hnames⟩ := ih
    refine ⟨e :: emitted, hsublist.cons_cons e, ?_⟩
    rw [List.map_cons, List.map_cons, hnames, Expected.name_of_declaration hd]
  | @failed e _ _ _ _ _ _ _ _ _ _ ih =>
    obtain ⟨emitted, hsublist, hnames⟩ := ih
    exact ⟨emitted, hsublist.cons e, hnames⟩

end ResponseTypes
