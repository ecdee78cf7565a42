import ResponseTypes.Proofs.Generation.Failing
import ResponseTypes.Proofs.Printer.Repairing

/-!
# Every declaration is accounted for

What is expected is either in the output or reported, and both are in order.  The file is written
beside the declarations, from the same runs: it holds the text of every declaration in the output
and of all those inside it, and nothing of a declaration that failed.

## What is here

* `Interleaves` — a list that is put together from two others.
* `Compilation.expectedNames` — the names of what is expected.
* `Generates.interleaves`, `Generates.printer_eq` — the names and the printer along a run.
* `Output.layout` and `Compilation.generate_accounts` — the names, and the file.
-/

set_option autoImplicit false

namespace ResponseTypes

/-! ## Lists put together -/

/-- The third list is put together from the first and the second one, each of them in order. -/
inductive Interleaves {α : Type} : List α → List α → List α → Prop where
  | nil : Interleaves [] [] []
  | left {a : α} {l r all : List α} (h : Interleaves l r all) : Interleaves (a :: l) r (a :: all)
  | right {a : α} {l r all : List α} (h : Interleaves l r all) : Interleaves l (a :: r) (a :: all)

/-! ## Names -/

/-- The declaration that an error is reported for. -/
def GenerationError.declaration? : GenerationError → Option String
  | .inDeclaration name _ => some name
  | _ => none

/-- The names of the declarations that are to be generated: the types that are used, for each
operation that of its variables, if it has any, and that of its result, and the fragments. -/
def Compilation.expectedNames (c : Compilation) : List String :=
  c.typesUsed
    ++ c.operations.flatMap (fun o =>
      if o.vars = [] then [o.typeName] else [o.variablesTypeName, o.typeName])
    ++ c.fragments.names

theorem Compilation.map_name_expected (c : Compilation) :
    c.expected.map Expected.name = c.expectedNames := by
  have hoperation : ∀ o : Operation, (Expected.ofOperation o).map Expected.name
      = if o.vars = [] then [o.typeName] else [o.variablesTypeName, o.typeName] := by
    intro o
    simp only [Expected.ofOperation, List.isEmpty_iff]
    split <;> rfl
  simp only [expected, expectedNames, FragmentRegistry.names, List.map_append, List.map_flatMap,
    hoperation, List.map_map]
  congr 1
  congr 1
  exact List.map_id _

namespace Generates

variable {x : EmissionContext} {levels : SelectionSet → Nat} {es : List Expected} {s t : Session}
  {ds : List Declaration} {errs : List GenerationError}

/-- What is expected is built or reported. -/
theorem interleaves (h : Generates x levels es s ds errs t) :
    ∃ failed : List String, errs.map GenerationError.declaration? = failed.map some ∧
      Interleaves (ds.map Declaration.name) failed (es.map Expected.name) := by
  induction h with
  | nil => exact ⟨[], rfl, .nil⟩
  | @built e _ _ _ _ d _ _ hd _ ih =>
    obtain ⟨failed, herrs, hnames⟩ := ih
    refine ⟨failed, herrs, ?_⟩
    rw [List.map_cons, List.map_cons, Expected.name_of_declaration hd]
    exact .left hnames
  | @failed e _ _ _ _ _ _ _ _ _ _ ih =>
    obtain ⟨failed, herrs, hnames⟩ := ih
    exact ⟨e.name :: failed, by rw [List.map_cons, List.map_cons, herrs]; rfl, .right hnames⟩

/-- Nothing happens to the printer but that the declarations that are built, and those inside them,
are put into the queue. -/
theorem printer_eq (h : Generates x levels es s ds errs t) :
    t.printer = { s.printer with
      queue := s.printer.queue
        ++ (Declaration.flattenAll ds).map fun d => .code (d.print s.printer.target) } := by
  induction h with
  | nil => simp [Declaration.flattenAll]
  | built hd _ ih =>
    have hprinter := Expected.printer_of_run_declaration hd
    rw [ih, Session.enqueue_eq, hprinter, Declaration.flattenAll]
    simp only [List.map_append, List.append_assoc]
    rfl
  | failed hd _ _ ih => rw [ih, Expected.printer_of_run_declaration hd]

end Generates

/-! ## The file -/

/-- The lines every file starts with are one part, and nothing else is printed when the first
declaration is built. -/
theorem Compilation.openSession_printer (c : Compilation) (o : Options) :
    (c.openSession o).printer
      = { target := o.targetSyntax
          queue := [.verbatim (String.intercalate "\n" o.targetSyntax.header)] } := by
  change (o.targetSyntax.header.foldl Printer.onNewline { target := o.targetSyntax }).finishPart = _
  rw [Options.targetSyntax]
  cases o.target <;> decide

/-- A file with declarations: the lines every file starts with, and behind a blank line each the
texts of the declarations and of those inside them. -/
def Output.layout (s : Syntax) (ds : List Declaration) : String :=
  String.intercalate "\n" s.header
    ++ String.join ((Declaration.flattenAll ds).map fun d => "\n\n" ++ d.render s) ++ "\n"

theorem intercalate_cons_eq_append_join (sep a : String) (l : List String) :
    String.intercalate sep (a :: l) = a ++ String.join (l.map fun b => sep ++ b) := by
  induction l generalizing a with
  | nil => simp
  | cons b l ih =>
    rw [String.intercalate_cons_cons, ih, List.map_cons, String.join_cons, String.append_assoc,
      String.append_assoc]

/-- A file is joined from its first lines and the declarations in the queue. -/
theorem Printer.flush_eq_layout (t : Target) (ds : List Declaration) :
    (Printer.flush
      { target := t.syntaxOf
        queue := .verbatim (String.intercalate "\n" t.syntaxOf.header)
          :: (Declaration.flattenAll ds).map fun d => .code (d.print t.syntaxOf) }).1
      = Output.layout t.syntaxOf ds := by
  have hheader : String.intercalate "\n" t.syntaxOf.header ≠ "" := by cases t <;> decide
  have hcode : ∀ d ∈ Declaration.flattenAll ds, d.render t.syntaxOf ≠ "" :=
    fun d _ => d.render_ne_empty t
  have hparts : ((Declaration.flattenAll ds).map fun d => Part.code (d.print t.syntaxOf)).map
      (partText t.syntaxOf) = (Declaration.flattenAll ds).map (Declaration.render t.syntaxOf) := by
    rw [List.map_map]
    rfl
  rw [flush, finishPart, if_pos rfl, joinParts, List.map_cons, hparts]
  rw [List.filter_eq_self.2]
  · simp only [partText, intercalate_cons_eq_append_join, Output.layout, List.map_map]
    rfl
  · simpa using ⟨hheader, hcode⟩

/-- **Every declaration is accounted for.**  The names of what is expected are those of the
declarations in the output and those that failures are reported for, put together in order.  The
file is laid out from the declarations in the output, and from nothing else. -/
theorem Compilation.generate_accounts {c : Compilation} {levels : SelectionSet → Nat} {o : Options}
    {out : Output} (h : c.generateWithin levels o = .ok out) :
    (∃ failed : List String,
      out.failures.map GenerationError.declaration? = failed.map some ∧
        Interleaves (out.declarations.map Declaration.name) failed c.expectedNames) ∧
      out.text = Output.layout o.targetSyntax out.declarations := by
  obtain ⟨t, hrun, -, htext⟩ := generates_of_generate h
  constructor
  · rw [← c.map_name_expected]
    exact hrun.interleaves
  · rw [htext, hrun.printer_eq, c.openSession_printer]
    exact Printer.flush_eq_layout o.target out.declarations

/-! ## A conflict in the first declaration -/

theorem exists_generate_conflicting :
    ∃ c out, compile twoFields conflicting {} = .ok c ∧ c.generate {} = .ok out ∧
      out.declarations.map Declaration.name = ["Loop"] ∧
        out.failures.map GenerationError.declaration? = [some "HeroQuery"] := by
  obtain ⟨c, hcompile, e₁, e₂, hexpected, hname, x, hx, err, hfatal, d, hd, hrun⟩ :
      ∃ c, compile twoFields conflicting {} = .ok c ∧ ∃ e₁ e₂, c.expected = [e₁, e₂] ∧
        e₁.name = "HeroQuery" ∧ ∃ x, c.emissionContext {} = x ∧
          ∃ err, (GenerationError.inDeclaration "HeroQuery" err).isFatal = false ∧
            ∃ d, d.name = "Loop" ∧ ∀ s : Session, s.printer.scope = [] →
              (e₁.declaration x x.levelsFor).run s = (.error err, s) ∧
                (e₂.declaration x x.levelsFor).run s = (.ok d, s) :=
    ⟨_, by cbv, _, _, by cbv, by cbv, _, rfl,
      .fieldMergeConflict "hero" (.named .scalar "String") (.named .scalar "Int"), rfl, _, rfl,
      fun ⟨_, _, _, _, _, _, _, _⟩ hscope => by
        cases hscope
        exact ⟨by cbv, by cbv⟩⟩
  obtain ⟨hfails, hbuilt⟩ := hrun (c.openSession {}) (by rw [c.openSession_printer])
  obtain ⟨text, hgenerate⟩ : ∃ text, c.generate {} = .ok
      { declarations := [d], text
        diagnostics := [.declarationFailed (.inDeclaration "HeroQuery" err)] } := by
    rw [Compilation.generate, Compilation.generateWithin, hexpected, hx]
    simp only [generateAll, hfails, hname, hfatal, hbuilt]
    exact ⟨_, rfl⟩
  exact ⟨c, _, hcompile, hgenerate, by rw [List.map_cons, hd]; rfl, rfl⟩

/-- The query fails, and the fragment behind it is in the file. -/
theorem generate_accounts_conflicting :
    ∃ c out, compile twoFields conflicting {} = .ok c ∧ c.generate {} = .ok out ∧
      out.declarations.map Declaration.name = ["Loop"] ∧
      out.failures.map GenerationError.declaration? = [some "HeroQuery"] ∧
      (∃ failed : List String,
        out.failures.map GenerationError.declaration? = failed.map some ∧
          Interleaves (out.declarations.map Declaration.name) failed c.expectedNames) ∧
        out.text = Output.layout Syntax.flow out.declarations := by
  obtain ⟨c, out, hcompile, hgenerate, hnames, hfailures⟩ := exists_generate_conflicting
  exact ⟨c, out, hcompile, hgenerate, hnames, hfailures, Compilation.generate_accounts hgenerate⟩

end ResponseTypes
