import ResponseTypes.Proofs.Generation.Outcomes

/-!
# Names of nested declarations in the output

Over a whole generation every nested declaration has a name that nothing else has, not even a
declaration that failed; and it is called after the declaration it is nested in.

## What is here

* `Generates.links` — what a run does to names and scopes.
* `Compilation.nested_names_of_generate` — the names in the output, within any number of levels.
-/

set_option autoImplicit false

namespace ResponseTypes

variable {x : EmissionContext} {levels : SelectionSet → Nat} {s t : Session}

theorem Printer.onNewline_scope (p : Printer) (text : String) :
    (p.onNewline text).scope = p.scope := by
  have hnewline : p.newline.scope = p.scope := by
    rw [newline]
    split <;> rfl
  rw [onNewline, print]
  split
  · exact hnewline
  · exact hnewline

/-- No component is in scope before the first declaration. -/
theorem Compilation.openSession_scope (c : Compilation) (o : Options) :
    (c.openSession o).printer.scope = [] := by
  have hheader : ∀ (lines : List String) (p : Printer),
      (lines.foldl Printer.onNewline p).scope = p.scope := by
    intro lines
    induction lines with
    | nil => exact fun p => rfl
    | cons line lines ih => exact fun p => (ih (p.onNewline line)).trans (p.onNewline_scope line)
  have hpart : ∀ p : Printer, p.finishPart.scope = p.scope := by
    intro p
    rw [Printer.finishPart]
    split <;> rfl
  rw [openSession]
  simp only [hpart, hheader]
  rfl

/-- **One declaration**: the names inside have been claimed for it, and it is linked. -/
theorem Expected.links_declaration {e : Expected} {d : Declaration}
    (hscope : s.printer.scope = []) (h : (e.declaration x levels).run s = (.ok d, t))
    {limit : Nat} (hlimit : t.names.size ≤ limit) :
    s.Claims (declaredNames d.nested) t ∧ Declaration.Linked limit d := by
  have hflat : d.nested = [] →
      s.Claims (declaredNames d.nested) t ∧ Declaration.Linked limit d := by
    intro hnested
    refine ⟨?_, Declaration.linked_iff.2 (by simp [hnested])⟩
    rw [hnested]
    exact .of_kept (e.keeps_declaration.subset_of_run h)
  have hset : ∀ {n : Nat} {name : String} {set : SelectionSet},
      (x.topLevelWithin n name none set).run s = (.ok d, t) →
        s.Claims (declaredNames d.nested) t ∧ Declaration.Linked limit d := by
    intro n name set hrun
    obtain ⟨r, hbuilds, rfl⟩ := exists_builds_of_topLevelWithin hrun
    have hname : name = nameSeparator.intercalate (s.pushScope name).printer.scope := by
      rw [Session.pushScope_scope, hscope]
      exact (joinName_nil name).symm
    obtain ⟨hclaims, hlinked⟩ := hbuilds.links (by simp) hname hlimit
    exact ⟨hclaims.congr (s.pushScope_names _).symm r.popScope_names, hlinked⟩
  cases e with
  | input typeName => exact hflat (input_declaration_spec h).2
  | vars o => exact hflat (vars_declaration_spec h).2
  | result o => exact hset h
  | fragment f => exact hset h

/-- **A run of a generation** claims the names of nested declarations, and declarations are linked.
-/
theorem Generates.links {es : List Expected} {ds : List Declaration} {errs : List GenerationError}
    (h : Generates x levels es s ds errs t) (hscope : s.printer.scope = []) :
    s.Claims (nestedNames ds) t ∧ ∀ d ∈ ds, Declaration.Linked t.names.size d := by
  induction h with
  | nil => exact ⟨.of_names_eq rfl, by simp⟩
  | @built e es r s t d ds errs hd _ ih =>
    have hr : r.printer.scope = [] := (e.restores_declaration.scope_of_run hd).trans hscope
    obtain ⟨hclaims', hall⟩ := ih ((r.enqueue_scope d).trans hr)
    have hkept : r.names.taken ⊆ t.names.taken := r.enqueue_names d ▸ hclaims'.kept
    obtain ⟨hclaims, hlinked⟩ :=
      Expected.links_declaration hscope hd (NameRegistry.size_mono hkept)
    exact ⟨hclaims.trans (hclaims'.congr (r.enqueue_names d).symm rfl),
      List.forall_mem_cons.2 ⟨hlinked, hall⟩⟩
  | @failed e es r s t err ds errs hd _ _ ih =>
    have hr : r.printer.scope = [] := (e.restores_declaration.scope_of_run hd).trans hscope
    obtain ⟨hclaims, hall⟩ := ih hr
    exact ⟨(Session.Claims.of_kept (e.keeps_declaration.subset_of_run hd)).trans hclaims, hall⟩

/-- What is nested in an output is declared only once, and has none of the expected names. -/
theorem Compilation.declared_once_of_generate {c : Compilation} {o : Options} {out : Output}
    (h : c.generateWithin levels o = .ok out) :
    ∀ name ∈ nestedNames out.declarations, (declaredNames out.declarations).count name = 1 ∧
      name ∉ c.expected.map Expected.name := by
  obtain ⟨t, hrun, -⟩ := generates_of_generate h
  obtain ⟨emitted, hsublist, hnames⟩ := hrun.exists_sublist
  exact declared_once (hrun.links (c.openSession_scope o)).1 hsublist hnames

/-- How many names are taken when a compiled document has been generated. -/
def Compilation.namesTaken (c : Compilation) (levels : SelectionSet → Nat) (o : Options) : Nat :=
  (afterAll (c.emissionContext o) levels c.expected (c.openSession o)).names.size

/-- **Nested declarations have names of their own**, whatever the number of levels.  The name of a
declaration that is nested anywhere in the output is declared only once, and is none of the expected
names; and it is that of the declaration around it, an underscore, and what stands for the name of a
property there that refers to it.  A number there is at most that of the names that are taken in the
end, so it has 32 bits unless some 2 ^ 31 of them are. -/
theorem Compilation.nested_names_of_generate {c : Compilation} {levels : SelectionSet → Nat}
    {o : Options} {out : Output} (h : c.generateWithin levels o = .ok out) :
    (∀ name ∈ nestedNames out.declarations, (declaredNames out.declarations).count name = 1 ∧
        name ∉ c.expected.map Expected.name) ∧
      ∀ d ∈ Declaration.flattenAll out.declarations, ∀ e ∈ d.nested,
        Declaration.Places (c.namesTaken levels o) d e := by
  refine ⟨declared_once_of_generate h, fun d hd => ?_⟩
  obtain ⟨t, hrun, -⟩ := generates_of_generate h
  obtain ⟨outer, houter, hinside⟩ := Declaration.mem_flattenAll.1 hd
  rw [namesTaken, hrun.afterAll_eq]
  exact (hrun.links (c.openSession_scope o)).2 outer houter d hinside

/-- A fragment with two variants that make different selections on the milk. -/
def dairy : Document where
  fragments := [{
    name := "Dairy"
    typeCondition := "Animal"
    selections := [
      .inline (some "Cow") [.field "milk" (some "aid") [.field "fat" none []]],
      .inline (some "Goat") [.field "milk" (some "aid") [.field "__typename" none []]]] }]

/-- The milk of the goat is given a number. -/
theorem nested_names_of_generate_dairy :
    ∃ c out, compile animals dairy {} = .ok c ∧ c.generate {} = .ok out ∧
      declaredNames out.declarations = ["Dairy", "Dairy_aid", "Dairy_aid2"] ∧
      (∀ name ∈ nestedNames out.declarations, (declaredNames out.declarations).count name = 1 ∧
        name ∉ c.expected.map Expected.name) ∧
      ∀ d ∈ Declaration.flattenAll out.declarations, ∀ e ∈ d.nested,
        Declaration.Places (c.namesTaken (c.emissionContext {}).levelsFor {}) d e := by
  obtain ⟨c, hcompile, e, hexpected, d, t, hd, hnames⟩ :
      ∃ c, compile animals dairy {} = .ok c ∧ ∃ e, c.expected = [e] ∧ ∃ d t,
        (e.declaration (c.emissionContext {}) (c.emissionContext {}).levelsFor).run
            (c.openSession {}) = (.ok d, t) ∧
          declaredNames [d] = ["Dairy", "Dairy_aid", "Dairy_aid2"] :=
    ⟨_, by cbv, _, by cbv, _, _, by cbv, rfl⟩
  obtain ⟨text, diagnostics, hgenerate⟩ : ∃ text diagnostics,
      c.generate {} = .ok { declarations := [d], text, diagnostics } := by
    rw [Compilation.generate, Compilation.generateWithin, hexpected, generateAll, hd]
    exact ⟨_, _, rfl⟩
  exact ⟨c, _, hcompile, hgenerate, hnames, Compilation.nested_names_of_generate hgenerate⟩

end ResponseTypes
