import ResponseTypes.Emission.Inputs
import ResponseTypes.Proofs.Emission.Ending
import ResponseTypes.Proofs.Emission.Naming

/-!
# Alike sessions

What is built in a session depends on which names are taken, not on the order in which they were,
and on the naming scope.  Sessions that agree in this are alike: from alike sessions the same is
built, and the sessions are alike afterwards.

From sessions that are not alike, different names may be claimed.  But whether a step succeeds does
not depend on any name, nor does whether it fails for want of levels.  Both facts have one proof:
two runs are followed side by side, and what is said about names is said under the condition that
the sessions were alike to begin with.

## What is here

* `NameRegistry.freeComponent_congr` — which component is found depends on the taken names alone.
* `Session.Alike`, and what keeps sessions alike.
* `Emit.Lifts` and `Emit.Agree` — results and runs side by side; `Emit.Agree.bind` and the lemmas on
  single steps.
* `EmissionContext.agree_declarationWithin` — declarations.
-/

set_option autoImplicit false

namespace ResponseTypes

/-! ## Components -/

namespace NameRegistry

/-- A number that is found and free is the least one, however many have been tried. -/
theorem firstFree_unique {isTaken : Nat → Bool} {tries tries' n : Nat}
    (h : isTaken (firstFree isTaken tries n) = false)
    (h' : isTaken (firstFree isTaken tries' n) = false) :
    firstFree isTaken tries n = firstFree isTaken tries' n := by
  rcases Nat.lt_trichotomy (firstFree isTaken tries n) (firstFree isTaken tries' n)
    with hlt | heq | hlt
  · cases h.symm.trans (isTaken_of_lt_firstFree isTaken (le_firstFree isTaken tries n) hlt)
  · exact heq
  · cases h'.symm.trans (isTaken_of_lt_firstFree isTaken (le_firstFree isTaken tries' n) hlt)

/-- **Which component is found** depends on the names that are taken, and not on their order. -/
theorem freeComponent_congr {r r' : NameRegistry} (h : ∀ name, name ∈ r.taken ↔ name ∈ r'.taken)
    (scope : List String) (key : String) :
    r.freeComponent scope key = r'.freeComponent scope key := by
  have hcontains : ∀ name, r.contains name = r'.contains name := by
    intro name
    rw [contains, contains, Bool.eq_iff_iff, List.contains_iff_mem, List.contains_iff_mem, h]
  rw [freeComponent, freeComponent, freeComponentFrom, freeComponentFrom]
  simp only [hcontains]
  split
  · rfl
  · split
    · rfl
    · have hfree := r.not_contains_firstFree scope (singular key)
      simp only [hcontains] at hfree
      rw [firstFree_unique hfree (r'.not_contains_firstFree scope (singular key))]

end NameRegistry

/-! ## Sessions -/

namespace Session

/-- In two sessions the same names are taken, and the same components are in scope. -/
structure Alike (s s' : Session) : Prop where
  names : ∀ name, name ∈ s.names.taken ↔ name ∈ s'.names.taken
  scope : s.printer.scope = s'.printer.scope

namespace Alike

variable {s s' s'' : Session}

theorem refl (s : Session) : s.Alike s :=
  ⟨fun _ => Iff.rfl, rfl⟩

theorem symm (h : s.Alike s') : s'.Alike s :=
  ⟨fun name => (h.names name).symm, h.scope.symm⟩

theorem trans (h : s.Alike s') (h' : s'.Alike s'') : s.Alike s'' :=
  ⟨fun name => (h.names name).trans (h'.names name), h.scope.trans h'.scope⟩

/-- For a response key the same component is found. -/
theorem componentFor_eq (h : s.Alike s') (key : String) :
    s.componentFor key = s'.componentFor key := by
  rw [componentFor, componentFor, h.scope]
  exact NameRegistry.freeComponent_congr h.names _ _

theorem claimed (h : s.Alike s') (key : String) : (s.claimed key).Alike (s'.claimed key) where
  names := by
    intro name
    change name ∈ (s.names.insert (joinName s.printer.scope (s.componentFor key))).taken ↔
      name ∈ (s'.names.insert (joinName s'.printer.scope (s'.componentFor key))).taken
    rw [NameRegistry.mem_taken_insert, NameRegistry.mem_taken_insert, h.componentFor_eq, h.scope,
      h.names]
  scope := h.scope

theorem noteScalar (h : s.Alike s') (scalar? : Option String) :
    (s.noteScalar scalar?).Alike (s'.noteScalar scalar?) where
  names := by simpa using h.names
  scope := by simpa using h.scope

theorem pushScope (h : s.Alike s') (component : String) :
    (s.pushScope component).Alike (s'.pushScope component) where
  names := h.names
  scope := by rw [pushScope_scope, pushScope_scope, h.scope]

theorem popScope (h : s.Alike s') : s.popScope.2.Alike s'.popScope.2 where
  names := h.names
  scope := by rw [popScope_scope, popScope_scope, h.scope]

end Alike
end Session

/-! ## Runs side by side -/

namespace Emit

/-- Two results are of one kind: two values that are related, or two errors that are both for want
of levels or both not; and these are equal under the condition. -/
inductive Lifts {α : Type} (alike : Prop) (R : α → α → Prop) :
    Except GenerationError α → Except GenerationError α → Prop where
  | ok {a a' : α} (h : R a a') : Lifts alike R (.ok a) (.ok a')
  | error {e e' : GenerationError} (hendless : e.IsEndless ↔ e'.IsEndless) (h : alike → e = e') :
    Lifts alike R (.error e) (.error e')

namespace Lifts

variable {α : Type} {alike : Prop} {r r' : Except GenerationError α}

/-- Under the condition the results are equal, if values that are related are. -/
theorem eq (h : Lifts alike (fun a a' => alike → a = a') r r') (halike : alike) : r = r' := by
  cases h with
  | ok h => rw [h halike]
  | error _ h => rw [h halike]

/-- Without any condition, both are errors for want of levels or neither is. -/
theorem endless_iff {R : α → α → Prop} (h : Lifts alike R r r') :
    (∃ err, r = .error err ∧ err.IsEndless) ↔ ∃ err, r' = .error err ∧ err.IsEndless := by
  cases h with
  | ok h => simp
  | error hendless h => simpa using hendless

end Lifts

/-- Two steps agree: they have results of one kind, and under the condition that the sessions are
alike, they are alike afterwards. -/
def Agree {α : Type} (alike : Prop) (R : α → α → Prop) (m m' : Emit α) : Prop :=
  ∀ s s', (alike → s.Alike s') →
    (alike → (m.run s).2.Alike (m'.run s').2) ∧ Lifts alike R (m.run s).1 (m'.run s').1

namespace Agree

variable {α β : Type} {alike : Prop} {R : α → α → Prop} {S : β → β → Prop}

theorem pure {a a' : α} (h : R a a') : Agree alike R (Pure.pure a) (Pure.pure a') :=
  fun _ _ hs => ⟨hs, .ok h⟩

theorem ofExcept {r r' : Except GenerationError α} (h : Lifts alike R r r') :
    Agree alike R (Emit.ofExcept r) (Emit.ofExcept r') := by
  intro s s' hs
  rw [run_ofExcept, run_ofExcept]
  exact ⟨hs, h⟩

theorem ofExcept_refl (r : Except GenerationError α) :
    Agree alike Eq (Emit.ofExcept r) (Emit.ofExcept r) := by
  refine ofExcept ?_
  cases r with
  | ok a => exact .ok rfl
  | error e => exact .error Iff.rfl fun _ => rfl

/-- **Steps one after the other** agree if each of them does. -/
theorem bind {m m' : Emit α} {f f' : α → Emit β} (hm : Agree alike R m m')
    (hf : ∀ a a', R a a' → Agree alike S (f a) (f' a')) :
    Agree alike S (m >>= f) (m' >>= f') := by
  intro s s' hs
  obtain ⟨hafter, hresult⟩ := hm s s' hs
  rw [run_bind, run_bind]
  rcases hrun : m.run s with ⟨r, t⟩
  rcases hrun' : m'.run s' with ⟨r', t'⟩
  rw [hrun, hrun'] at hafter hresult
  cases hresult with
  | ok h => exact hf _ _ h t t' hafter
  | error hendless h => exact ⟨hafter, .error hendless h⟩

theorem scope : Agree alike (fun l l' => alike → l = l') Emit.scope Emit.scope := by
  intro s s' hs
  rw [run_scope, run_scope]
  exact ⟨hs, .ok fun h => (hs h).scope⟩

theorem claim (key : String) :
    Agree alike (fun c c' => alike → c = c') (Emit.claim key) (Emit.claim key) := by
  intro s s' hs
  rw [run_claim, run_claim]
  exact ⟨fun h => (hs h).claimed key, .ok fun h => (hs h).componentFor_eq key⟩

theorem inScope {component component' : String} (hcomponent : alike → component = component')
    {m m' : Emit α} (hm : Agree alike R m m') :
    Agree alike R (Emit.inScope component m) (Emit.inScope component' m') := by
  intro s s' hs
  have hinside : alike → (s.pushScope component).Alike (s'.pushScope component') :=
    fun h => hcomponent h ▸ (hs h).pushScope component
  obtain ⟨hafter, hresult⟩ := hm _ _ hinside
  exact ⟨fun h => (hafter h).popScope, hresult⟩

end Agree
end Emit

/-! ## Types -/

namespace Options

variable {o : Options} {naming naming' : CompositeNaming} {t : ResolvedType} {e : GenerationError}

/-- Whether a type can be expressed does not depend on what composite types are called. -/
theorem innerTypeExpr_eq_error (h : o.innerTypeExpr naming t = .error e) :
    o.innerTypeExpr naming' t = .error e := by
  induction t using innerTypeExpr.induct with
  | case1 kind name => cases h
  | case2 t ih | case3 t ih =>
    rw [innerTypeExpr, map_eq_error_iff] at h ⊢
    exact ih h
  | case4 kind name => cases h
  | case5 t =>
    rw [innerTypeExpr] at h ⊢
    exact h

theorem typeExpr_eq_error (h : o.typeExpr naming t = .error e) :
    o.typeExpr naming' t = .error e := by
  cases t with
  | nonNull t => exact innerTypeExpr_eq_error h
  | named kind name => cases h
  | list t => exact map_eq_error_iff.2 (innerTypeExpr_eq_error (map_eq_error_iff.1 h))

/-- Expressions of one type are of one kind. -/
theorem lifts_typeExpr {alike : Prop} (hnaming : alike → naming = naming') (t : ResolvedType) :
    Emit.Lifts alike (fun e e' => alike → e = e') (o.typeExpr naming t) (o.typeExpr naming' t) := by
  cases h : o.typeExpr naming t with
  | ok expr =>
    cases h' : o.typeExpr naming' t with
    | ok expr' =>
      refine .ok fun halike => ?_
      rw [hnaming halike, h'] at h
      exact (Except.ok.inj h).symm
    | error e => cases (typeExpr_eq_error h').symm.trans h
  | error e =>
    rw [typeExpr_eq_error h]
    exact .error Iff.rfl fun _ => rfl

end Options

theorem Emit.Agree.typeExpr {alike : Prop} (o : Options) {naming naming' : CompositeNaming}
    (hnaming : alike → naming = naming') (t : ResolvedType) :
    Agree alike (fun e e' => alike → e = e') (Emit.typeExpr o naming t)
      (Emit.typeExpr o naming' t) := by
  refine (Agree.ofExcept (Options.lifts_typeExpr hnaming t)).bind fun e e' he => ?_
  intro s s' hs
  exact ⟨fun h => (hs h).noteScalar _, .ok he⟩

/-! ## Declarations -/

/-- What the selections are that a table has declarations for. -/
def NestedTable.keys (table : NestedTable) : List (String × SelectionSet) :=
  table.map fun e => (e.key, e.set)

/-- Tables with the same keys have declarations for the same selections. -/
theorem NestedTable.name?_isSome_congr {table table' : NestedTable} (h : table.keys = table'.keys)
    (key : String) (set : SelectionSet) :
    (table.name? key set).isSome = (table'.name? key set).isSome := by
  have hany : ∀ table : NestedTable, (table.name? key set).isSome
      = table.keys.any fun k => k.1 == key && k.2 == set := by
    intro table
    rw [name?, Option.isSome_map, List.isSome_find?, keys, List.any_map]
    rfl
  rw [hany, hany, h]

namespace EmissionContext

variable (x : EmissionContext) {alike : Prop} {declare : String → SelectionSet → Emit Declaration}

/-- Two tables, with what has been built beside them, have the same keys, and are equal under the
condition. -/
def SameKeys {α : Type} (alike : Prop) (r r' : α × NestedTable) : Prop :=
  r.2.keys = r'.2.keys ∧ (alike → r = r')

section Levels

variable (hdeclare : ∀ name name' set, (alike → name = name') →
  Emit.Agree alike (fun d d' => alike → d = d') (declare name set) (declare name' set))

include hdeclare

/-- **One field** in both runs.  Either both have declared the selections on its value before, or
both declare them now. -/
theorem agree_propertyType {table table' : NestedTable} (hkeys : table.keys = table'.keys)
    (htable : alike → table = table') (m : MergedField) :
    Emit.Agree alike (SameKeys alike) (x.propertyType declare table m)
      (x.propertyType declare table' m) := by
  have hplain : ∀ {naming naming' : CompositeNaming}, (alike → naming = naming') →
      Emit.Agree alike (SameKeys alike)
        (Emit.typeExpr x.options naming m.type >>= fun type => pure (type, table))
        (Emit.typeExpr x.options naming' m.type >>= fun type => pure (type, table')) := by
    intro naming naming' hnaming
    refine (Emit.Agree.typeExpr x.options hnaming m.type).bind fun type type' htype => ?_
    exact .pure ⟨hkeys, fun h => Prod.ext (htype h) (htable h)⟩
  rw [propertyType, propertyType]
  split
  · exact .pure ⟨hkeys, fun h => by rw [htable h]⟩
  · rename_i set hnarrowed hset hcomposite
    have hsome := NestedTable.name?_isSome_congr hkeys m.key set
    cases hname : table.name? m.key set with
    | some name =>
      cases hname' : table'.name? m.key set with
      | none =>
        rw [hname, hname'] at hsome
        cases hsome
      | some name' =>
        refine hplain fun h => congrArg CompositeNaming.claimed ?_
        rw [htable h, hname'] at hname
        exact (Option.some.inj hname).symm
    | none =>
      cases hname' : table'.name? m.key set with
      | some name' =>
        rw [hname, hname'] at hsome
        cases hsome
      | none =>
        refine (Emit.Agree.claim m.key).bind fun component component' hcomponent => ?_
        refine Emit.Agree.scope.bind fun scope scope' hscope => ?_
        have hjoined : alike → joinName scope component = joinName scope' component' :=
          fun h => by rw [hscope h, hcomponent h]
        refine (Emit.Agree.inScope hcomponent (hdeclare _ _ set hjoined)).bind fun d d' hd => ?_
        refine (Emit.Agree.typeExpr x.options (fun h => by rw [hjoined h]) m.type).bind
          fun type type' htype => .pure ⟨?_, fun h => by rw [htype h, htable h, hd h]⟩
        simp only [NestedTable.keys, List.map_append, List.map_cons, List.map_nil]
        exact congrArg (· ++ [(m.key, set)]) hkeys
  · refine Emit.Agree.scope.bind fun scope scope' hscope => hplain fun h => ?_
    rw [hscope h]

theorem agree_properties {table table' : NestedTable} (hkeys : table.keys = table'.keys)
    (htable : alike → table = table') (ms : List MergedField) :
    Emit.Agree alike (SameKeys alike) (x.properties declare table ms)
      (x.properties declare table' ms) := by
  induction ms generalizing table table' with
  | nil => exact .pure ⟨hkeys, fun h => by rw [htable h]⟩
  | cons m ms ih =>
    rw [properties, properties]
    refine (agree_propertyType x hdeclare hkeys htable m).bind fun r r' hr => ?_
    refine (ih hr.1 fun h => congrArg Prod.snd (hr.2 h)).bind fun q q' hq => ?_
    exact .pure ⟨hq.1, fun h => by rw [hr.2 h, hq.2 h]⟩

theorem agree_shapes {table table' : NestedTable} (hkeys : table.keys = table'.keys)
    (htable : alike → table = table') (vs : List Variant) :
    Emit.Agree alike (SameKeys alike) (x.shapes declare table vs)
      (x.shapes declare table' vs) := by
  induction vs generalizing table table' with
  | nil => exact .pure ⟨hkeys, fun h => by rw [htable h]⟩
  | cons v vs ih =>
    rw [shapes, shapes]
    refine (agree_properties x hdeclare hkeys htable v.fields).bind fun r r' hr => ?_
    refine (ih hr.1 fun h => congrArg Prod.snd (hr.2 h)).bind fun q q' hq => ?_
    exact .pure ⟨hq.1, fun h => by rw [hr.2 h, hq.2 h]⟩

end Levels

/-- **A selection set** is declared in both runs, or it fails in both, for want of levels in both or
in neither; and from alike sessions the same happens. -/
theorem agree_declarationWithin (levels : Nat) {name name' : String} (hname : alike → name = name')
    (description? : Option String) (set : SelectionSet) :
    Emit.Agree alike (fun d d' => alike → d = d')
      (x.declarationWithin levels name description? set)
      (x.declarationWithin levels name' description? set) := by
  induction levels generalizing name name' description? set with
  | zero =>
    refine fun s s' hs => ⟨hs, .error ?_ fun h => by rw [hname h]⟩
    exact iff_of_true ⟨name, rfl⟩ ⟨name', rfl⟩
  | succ levels ih =>
    rw [declarationWithin_succ, declarationWithin_succ, declarationBy, declarationBy]
    refine (Emit.Agree.ofExcept_refl (x.collector.variants set)).bind fun vs vs' hvs => ?_
    subst hvs
    refine (agree_shapes x (fun name name' below h => ih h none below) rfl (fun _ => rfl) vs).bind
      fun r r' hr => .pure fun h => ?_
    rw [hr.2 h, hname h]

/-- The declaration of a selection set under a name of its own. -/
theorem agree_topLevelWithin (levels : Nat) (name : String) (description? : Option String)
    (set : SelectionSet) :
    Emit.Agree alike (fun d d' => alike → d = d') (x.topLevelWithin levels name description? set)
      (x.topLevelWithin levels name description? set) :=
  .inScope (fun _ => rfl) (x.agree_declarationWithin _ (fun _ => rfl) description? set)

/-! ## Inputs -/

theorem agree_inputProperty (name : String) (t : ResolvedType) (description? : Option String) :
    Emit.Agree alike (fun p p' => alike → p = p') (x.inputProperty name t description?)
      (x.inputProperty name t description?) :=
  (Emit.Agree.typeExpr x.options (fun _ => rfl) t).bind fun type type' htype =>
    .pure fun h => by rw [htype h]

theorem agree_inputDeclaration (d : InputObjectDefinition) :
    Emit.Agree alike (fun d d' => alike → d = d') (x.inputDeclaration d)
      (x.inputDeclaration d) := by
  have hproperties : ∀ fs : List InputField, Emit.Agree alike (fun ps ps' => alike → ps = ps')
      (x.inputProperties fs) (x.inputProperties fs) := by
    intro fs
    induction fs with
    | nil => exact .pure fun _ => rfl
    | cons f fs ih =>
      rw [inputProperties]
      refine (Emit.Agree.ofExcept_refl (SchemaError.lift (x.schema.resolve f.type))).bind
        fun t t' ht => ?_
      subst ht
      refine (x.agree_inputProperty f.name t f.description?).bind fun p p' hp => ?_
      exact ih.bind fun ps ps' hps => .pure fun h => by rw [hp h, hps h]
  exact (hproperties d.fields).bind fun ps ps' hps => .pure fun h => by rw [hps h]

theorem agree_variablesDeclaration (o : Operation) :
    Emit.Agree alike (fun d d' => alike → d = d') (x.variablesDeclaration o)
      (x.variablesDeclaration o) := by
  have hproperties : ∀ vs : List Variable, Emit.Agree alike (fun ps ps' => alike → ps = ps')
      (x.variableProperties vs) (x.variableProperties vs) := by
    intro vs
    induction vs with
    | nil => exact .pure fun _ => rfl
    | cons v vs ih =>
      rw [variableProperties]
      refine (x.agree_inputProperty v.name v.type none).bind fun p p' hp => ?_
      exact ih.bind fun ps ps' hps => .pure fun h => by rw [hp h, hps h]
  exact (hproperties o.vars).bind fun ps ps' hps => .pure fun h => by rw [hps h]

end EmissionContext
end ResponseTypes
