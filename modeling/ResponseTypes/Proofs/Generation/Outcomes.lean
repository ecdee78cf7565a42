import ResponseTypes.Proofs.Emission.Alike
import ResponseTypes.Proofs.Generation.Running

/-!
# Outcomes of a generation

An output holds the declarations that could be built, and the errors of the others.  It does not say
which declaration is which; that is told by the outcomes, of which there is one for everything that
was expected.

What becomes of a declaration depends on the session only by the names that are taken and by the
naming scope.  From alike sessions the same becomes of all declarations.

## What is here

* `Outcome`, `outcomes` and `afterAll` — what has become of declarations, and the session after
  them.
* `Output.Records` and `Compilation.records_of_generate` — what of it is in an output.
* `Expected.agree_declaration` and `outcomes_congr` — generations from alike sessions.
* `exists_endless_iff` — which declarations fail for want of levels.
-/

set_option autoImplicit false

namespace ResponseTypes

/-! ## Outcomes -/

/-- What has become of a declaration that was to be generated. -/
structure Outcome where
  expected : Expected
  result : Except GenerationError Declaration

namespace Outcome

/-- The declaration that has been built. -/
def declaration? (r : Outcome) : Option Declaration :=
  r.result.toOption

/-- What is reported about a declaration that has failed. -/
def failure? (r : Outcome) : Option GenerationError :=
  match r.result with
  | .ok _ => none
  | .error err => some (.inDeclaration r.expected.name err)

/-- The declaration has failed for want of levels. -/
def IsEndless (r : Outcome) : Prop :=
  ∃ err, r.result = .error err ∧ err.IsEndless

end Outcome

namespace Expected

/-- It is the variables or the result of an operation that are to be declared. -/
def isOfOperation : Expected → Bool
  | .vars _ | .result _ => true
  | .input _ | .fragment _ => false

/-- What becomes of a declaration in a session. -/
def outcome (x : EmissionContext) (levels : SelectionSet → Nat) (e : Expected) (s : Session) :
    Outcome where
  expected := e
  result := ((e.declaration x levels).run s).1

/-- The session after a declaration.  It is in the queue if it has been built. -/
def after (x : EmissionContext) (levels : SelectionSet → Nat) (e : Expected) (s : Session) :
    Session :=
  match (e.declaration x levels).run s with
  | (.ok d, t) => t.enqueue d
  | (.error _, t) => t

variable {x : EmissionContext} {levels : SelectionSet → Nat} {e : Expected} {s t : Session}

theorem after_of_run_eq_ok {d : Declaration} (h : (e.declaration x levels).run s = (.ok d, t)) :
    e.after x levels s = t.enqueue d := by
  rw [after, h]

theorem after_of_run_eq_error {err : GenerationError}
    (h : (e.declaration x levels).run s = (.error err, t)) : e.after x levels s = t := by
  rw [after, h]

/-- Putting a declaration into the queue leaves names as they are. -/
@[simp] theorem after_names :
    (e.after x levels s).names = ((e.declaration x levels).run s).2.names := by
  rw [after]
  split
  · rename_i d t h
    rw [h, Session.enqueue_names]
  · rename_i h
    rw [h]

@[simp] theorem after_scope : (e.after x levels s).printer.scope = s.printer.scope := by
  rw [after]
  split
  · rename_i d t h
    rw [Session.enqueue_scope, e.restores_declaration.scope_of_run h]
  · rename_i h
    rw [e.restores_declaration.scope_of_run h]

end Expected

/-- What becomes of declarations that are generated one after the other. -/
def outcomes (x : EmissionContext) (levels : SelectionSet → Nat) :
    List Expected → Session → List Outcome
  | [], _ => []
  | e :: es, s => e.outcome x levels s :: outcomes x levels es (e.after x levels s)

/-- The session after declarations that are generated one after the other. -/
def afterAll (x : EmissionContext) (levels : SelectionSet → Nat) (es : List Expected)
    (s : Session) : Session :=
  es.foldl (fun s e => e.after x levels s) s

/-- What becomes of the declarations of a compiled document. -/
def Compilation.outcomes (c : Compilation) (levels : SelectionSet → Nat) (o : Options) :
    List Outcome :=
  ResponseTypes.outcomes (c.emissionContext o) levels c.expected (c.openSession o)

/-- The declarations in the output are those that have been built, and the others are reported. -/
structure Output.Records (out : Output) (rs : List Outcome) : Prop where
  declarations : out.declarations = rs.filterMap Outcome.declaration?
  failures : out.failures = rs.filterMap Outcome.failure?

section

variable {x : EmissionContext} {levels : SelectionSet → Nat} {es : List Expected} {s t : Session}

theorem outcomes_append (es fs : List Expected) (s : Session) :
    outcomes x levels (es ++ fs) s
      = outcomes x levels es s ++ outcomes x levels fs (afterAll x levels es s) := by
  induction es generalizing s with
  | nil => rfl
  | cons e es ih => exact congrArg (e.outcome x levels s :: ·) (ih (e.after x levels s))

theorem map_expected_outcomes (es : List Expected) (s : Session) :
    (outcomes x levels es s).map Outcome.expected = es := by
  induction es generalizing s with
  | nil => rfl
  | cons e es ih => exact congrArg (e :: ·) (ih (e.after x levels s))

/-- Every outcome is that of something expected, in some session. -/
theorem exists_of_mem_outcomes {r : Outcome} (h : r ∈ outcomes x levels es s) :
    ∃ e ∈ es, ∃ s', r = e.outcome x levels s' := by
  induction es generalizing s with
  | nil => cases h
  | cons e es ih =>
    rcases List.mem_cons.1 h with rfl | h
    · exact ⟨e, List.mem_cons_self, s, rfl⟩
    · obtain ⟨e', he', hr⟩ := ih h
      exact ⟨e', List.mem_cons_of_mem e he', hr⟩

/-- Everything expected has an outcome, in some session. -/
theorem exists_outcome_mem {e : Expected} (h : e ∈ es) (s : Session) :
    ∃ s', e.outcome x levels s' ∈ outcomes x levels es s := by
  induction es generalizing s with
  | nil => cases h
  | cons e' es ih =>
    rcases List.mem_cons.1 h with rfl | h
    · exact ⟨s, List.mem_cons_self⟩
    · obtain ⟨s', hmem⟩ := ih h (e'.after x levels s)
      exact ⟨s', List.mem_cons_of_mem _ hmem⟩

/-- A run ends in the session after all declarations. -/
theorem Generates.afterAll_eq {ds : List Declaration} {errs : List GenerationError}
    (h : Generates x levels es s ds errs t) : afterAll x levels es s = t := by
  induction h with
  | nil => rfl
  | built hd _ ih => rw [afterAll, List.foldl_cons, Expected.after_of_run_eq_ok hd, ← afterAll, ih]
  | failed hd _ _ ih =>
    rw [afterAll, List.foldl_cons, Expected.after_of_run_eq_error hd, ← afterAll, ih]

/-- A run builds and reports what the outcomes say. -/
theorem Generates.filterMap_outcomes {ds : List Declaration} {errs : List GenerationError}
    (h : Generates x levels es s ds errs t) :
    (outcomes x levels es s).filterMap Outcome.declaration? = ds ∧
      (outcomes x levels es s).filterMap Outcome.failure? = errs := by
  induction h with
  | nil => exact ⟨rfl, rfl⟩
  | @built e es r s t d ds errs hd _ ih =>
    have hresult : (e.outcome x levels s).result = .ok d := congrArg Prod.fst hd
    rw [outcomes, Expected.after_of_run_eq_ok hd]
    constructor
    · rw [List.filterMap_cons_some (b := d) (by rw [Outcome.declaration?, hresult]; rfl), ih.1]
    · rw [List.filterMap_cons_none (by rw [Outcome.failure?, hresult]), ih.2]
  | @failed e es r s t err ds errs hd _ _ ih =>
    have hresult : (e.outcome x levels s).result = .error err := congrArg Prod.fst hd
    rw [outcomes, Expected.after_of_run_eq_error hd]
    constructor
    · rw [List.filterMap_cons_none (by rw [Outcome.declaration?, hresult]; rfl), ih.1]
    · rw [List.filterMap_cons_some (b := .inDeclaration e.name err)
        (by rw [Outcome.failure?, hresult]; rfl), ih.2]

end

theorem Compilation.records_of_generate {c : Compilation} {levels : SelectionSet → Nat}
    {o : Options} {out : Output} (h : c.generateWithin levels o = .ok out) :
    out.Records (c.outcomes levels o) := by
  obtain ⟨t, hrun, -⟩ := generates_of_generate h
  exact ⟨hrun.filterMap_outcomes.1.symm, hrun.filterMap_outcomes.2.symm⟩

/-- What fails for want of levels is reported so. -/
theorem Output.Records.endless_iff {out : Output} {rs : List Outcome} (h : out.Records rs) :
    (∃ err ∈ out.failures, err.IsEndless) ↔ ∃ r ∈ rs, r.IsEndless := by
  rw [h.failures]
  constructor
  · rintro ⟨err, herr, hendless⟩
    obtain ⟨r, hr, hfailure⟩ := List.mem_filterMap.1 herr
    rw [Outcome.failure?] at hfailure
    split at hfailure
    · cases hfailure
    · rename_i err' hresult
      cases hfailure
      exact ⟨r, hr, err', hresult, (GenerationError.isEndless_inDeclaration _ _).1 hendless⟩
  · rintro ⟨r, hr, err, hresult, hendless⟩
    refine ⟨.inDeclaration r.expected.name err, List.mem_filterMap.2 ⟨r, hr, ?_⟩,
      (GenerationError.isEndless_inDeclaration _ _).2 hendless⟩
    rw [Outcome.failure?, hresult]

/-! ## Alike sessions -/

namespace Expected

variable (x : EmissionContext) (levels : SelectionSet → Nat)

/-- **One declaration** in two sessions. -/
theorem agree_declaration (alike : Prop) (e : Expected) :
    Emit.Agree alike (fun d d' => alike → d = d') (e.declaration x levels)
      (e.declaration x levels) := by
  cases e with
  | input typeName =>
    rw [declaration]
    split
    · exact .pure fun _ => rfl
    · exact x.agree_inputDeclaration _
    · exact fun s s' hs => ⟨hs, .error Iff.rfl fun _ => rfl⟩
  | vars o => exact x.agree_variablesDeclaration o
  | result o => exact x.agree_topLevelWithin _ _ _ _
  | fragment f => exact x.agree_topLevelWithin _ _ _ _

variable {x} {levels} {s s' : Session}

theorem outcome_congr (h : s.Alike s') (e : Expected) :
    e.outcome x levels s = e.outcome x levels s' := by
  obtain ⟨-, hresult⟩ := agree_declaration x levels True e s s' fun _ => h
  rw [outcome, outcome, hresult.eq trivial]

theorem alike_after (h : s.Alike s') (e : Expected) :
    (e.after x levels s).Alike (e.after x levels s') where
  names := by
    obtain ⟨hafter, -⟩ := agree_declaration x levels True e s s' fun _ => h
    rw [after_names, after_names]
    exact (hafter trivial).names
  scope := by rw [after_scope, after_scope, h.scope]

/-- Whether a declaration fails for want of levels does not depend on the session. -/
theorem endless_outcome_iff (e : Expected) (s s' : Session) :
    (e.outcome x levels s).IsEndless ↔ (e.outcome x levels s').IsEndless :=
  (agree_declaration x levels False e s s' False.elim).2.endless_iff

end Expected

section

variable {x : EmissionContext} {levels : SelectionSet → Nat} {s s' : Session}

/-- **From alike sessions** the same becomes of all declarations. -/
theorem outcomes_congr (h : s.Alike s') (es : List Expected) :
    outcomes x levels es s = outcomes x levels es s' := by
  induction es generalizing s s' with
  | nil => rfl
  | cons e es ih => rw [outcomes, outcomes, Expected.outcome_congr h, ih (Expected.alike_after h e)]

/-- From any session the same declarations fail for want of levels. -/
theorem exists_endless_iff {es : List Expected} :
    (∃ r ∈ outcomes x levels es s, r.IsEndless) ↔
      ∃ e ∈ es, ∃ s', (e.outcome x levels s').IsEndless := by
  constructor
  · rintro ⟨r, hr, hendless⟩
    obtain ⟨e, he, s', rfl⟩ := exists_of_mem_outcomes hr
    exact ⟨e, he, s', hendless⟩
  · rintro ⟨e, he, s', hendless⟩
    obtain ⟨s'', hr⟩ := exists_outcome_mem (x := x) he s
    exact ⟨_, hr, (e.endless_outcome_iff s' s'').1 hendless⟩

end

end ResponseTypes
