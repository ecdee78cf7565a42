import Mathlib.Data.List.Permutation
import Std.Internal.Do.WP.Lemmas
import ResponseTypes.Emission.Selections
import ResponseTypes.Proofs.Name.Claiming

/-!
# Steps of emission

A step of emission takes a session to another one, whether it succeeds or fails.  The lemmas say
what each kind of step does.  What no single step changes, no composed one does: no step gives a
name back, and every scope that is entered is left again.

## What is here

* `Emit.run_bind`, `Emit.run_bind_eq_ok_iff`, `Emit.run_bind_eq_error_iff` — steps one after the
  other; and what the single steps do.
* `Session.Tracks` and `Emit.Respects` — relations between sessions that hold along every step;
  `Emit.Keeps` and `Emit.Restores` are two of them.  `Session.TracksTypes` asks only for the steps
  by which types are expressed.
* `Session.Claims` — between two sessions some names have been claimed, each of them once.

The runs of examples are evaluated by the equations of `StateT` in `Std.Internal.Do.WP.Lemmas`, and
by those of pairs in `Mathlib.Data.List.Permutation`.
-/

set_option autoImplicit false

namespace ResponseTypes
namespace Emit

/-! ## What steps do -/

@[simp] theorem run_pure {α : Type} (a : α) (s : Session) :
    (pure a : Emit α).run s = (.ok a, s) := rfl

@[simp] theorem run_throw {α : Type} (e : GenerationError) (s : Session) :
    (throw e : Emit α).run s = (.error e, s) := rfl

theorem run_bind {α β : Type} (m : Emit α) (f : α → Emit β) (s : Session) :
    (m >>= f).run s
      = match m.run s with
        | (.ok a, s) => (f a).run s
        | (.error e, s) => (.error e, s) := by
  change (ExceptT.bindCont f (m.run s).1).run (m.run s).2 = _
  split
  · rename_i a t h
    rw [h]
    rfl
  · rename_i e t h
    rw [h]
    rfl

/-- Two steps succeed when one does and then the other. -/
theorem run_bind_eq_ok_iff {α β : Type} {m : Emit α} {f : α → Emit β} {s t : Session} {b : β} :
    (m >>= f).run s = (.ok b, t) ↔
      ∃ a r, m.run s = (.ok a, r) ∧ (f a).run r = (.ok b, t) := by
  rw [run_bind]
  constructor
  · intro hb
    split at hb
    · rename_i a r h
      exact ⟨a, r, h, hb⟩
    · cases hb
  · rintro ⟨a, r, h, hb⟩
    rw [h]
    exact hb

/-- Two steps fail when one does, or the other after it. -/
theorem run_bind_eq_error_iff {α β : Type} {m : Emit α} {f : α → Emit β} {s t : Session}
    {e : GenerationError} :
    (m >>= f).run s = (.error e, t) ↔
      m.run s = (.error e, t) ∨ ∃ a r, m.run s = (.ok a, r) ∧ (f a).run r = (.error e, t) := by
  rw [run_bind]
  constructor
  · intro hb
    split at hb
    · rename_i a r h
      exact .inr ⟨a, r, h, hb⟩
    · rename_i e' r h
      cases hb
      exact .inl h
  · rintro (h | ⟨a, r, h, hb⟩)
    · rw [h]
    · rw [h]
      exact hb

@[simp] theorem run_ofExcept {α : Type} (r : Except GenerationError α) (s : Session) :
    (ofExcept r).run s = (r, s) := by
  cases r <;> rfl

@[simp] theorem run_scope (s : Session) : scope.run s = (.ok s.printer.scope, s) := rfl

@[simp] theorem run_claim (key : String) (s : Session) :
    (claim key).run s = (.ok (s.names.freeComponent s.printer.scope key),
      { s with names := (s.names.claim s.printer.scope key).2 }) := rfl

/-- A step inside a component succeeds if the step does in the narrower scope. -/
theorem exists_of_run_inScope_eq_ok {α : Type} {component : String} {m : Emit α} {s t : Session}
    {a : α} (h : (inScope component m).run s = (.ok a, t)) :
    ∃ r, m.run (s.pushScope component) = (.ok a, r) ∧ t = r.popScope.2 := by
  obtain ⟨hresult, rfl⟩ := Prod.mk.inj h
  exact ⟨_, Prod.ext hresult rfl, rfl⟩

theorem run_typeExpr (o : Options) (naming : CompositeNaming) (t : ResolvedType) (s : Session) :
    (typeExpr o naming t).run s
      = match o.typeExpr naming t with
        | .ok e => (.ok e, s.noteScalar (o.unmappedScalar? t))
        | .error e => (.error e, s) := by
  rw [typeExpr, noting]
  cases o.typeExpr naming t <;> rfl

/-- A type is expressed if there is an expression for it, and then only a scalar is noted. -/
theorem typeExpr_of_run_eq_ok {o : Options} {naming : CompositeNaming} {t : ResolvedType}
    {s s' : Session} {e : TypeExpr} (h : (typeExpr o naming t).run s = (.ok e, s')) :
    o.typeExpr naming t = .ok e ∧ s' = s.noteScalar (o.unmappedScalar? t) := by
  rw [run_typeExpr] at h
  split at h
  · rename_i e' he
    cases h
    exact ⟨he, rfl⟩
  · cases h

end Emit

@[simp] theorem Session.noteScalar_names (s : Session) (scalar? : Option String) :
    (s.noteScalar scalar?).names = s.names := by
  cases scalar? with
  | none => rfl
  | some name =>
    rw [noteScalar]
    split <;> rfl

@[simp] theorem Session.pushScope_names (s : Session) (component : String) :
    (s.pushScope component).names = s.names := rfl

@[simp] theorem Session.popScope_names (s : Session) : s.popScope.2.names = s.names := rfl

@[simp] theorem Session.noteScalar_printer (s : Session) (scalar? : Option String) :
    (s.noteScalar scalar?).printer = s.printer := by
  cases scalar? with
  | none => rfl
  | some name =>
    rw [noteScalar]
    split <;> rfl

theorem Session.noteScalar_scope (s : Session) (scalar? : Option String) :
    (s.noteScalar scalar?).printer.scope = s.printer.scope := by
  rw [noteScalar_printer]

@[simp] theorem Session.pushScope_scope (s : Session) (component : String) :
    (s.pushScope component).printer.scope = s.printer.scope ++ [component] := rfl

@[simp] theorem Session.popScope_scope (s : Session) :
    s.popScope.2.printer.scope = s.printer.scope.dropLast := rfl

/-! ## What composed steps do -/

namespace Session

/-- The session after a component has been claimed for a response key. -/
def claimed (s : Session) (key : String) : Session :=
  { s with names := (s.names.claim s.printer.scope key).2 }

/-- A relation between sessions that holds along the single steps, and across the scope of a
component if it holds inside. -/
structure Tracks (R : Session → Session → Prop) : Prop where
  refl : ∀ s, R s s
  trans : ∀ {r s t}, R r s → R s t → R r t
  claimed : ∀ s key, R s (s.claimed key)
  noteScalar : ∀ s scalar?, R s (s.noteScalar scalar?)
  inScope : ∀ {s t} component, R (s.pushScope component) t → R s t.popScope.2

/-- A relation between sessions that holds along the steps by which types are expressed. -/
structure TracksTypes (R : Session → Session → Prop) : Prop where
  refl : ∀ s, R s s
  trans : ∀ {r s t}, R r s → R s t → R r t
  noteScalar : ∀ s scalar?, R s (s.noteScalar scalar?)

theorem Tracks.types {R : Session → Session → Prop} (h : Tracks R) : TracksTypes R :=
  ⟨h.refl, h.trans, h.noteScalar⟩

end Session

namespace Emit

/-- A relation holds along a step, whether it succeeds or fails. -/
def Respects {α : Type} (R : Session → Session → Prop) (m : Emit α) : Prop :=
  ∀ s, R s (m.run s).2

namespace Respects

variable {α β : Type} {R : Session → Session → Prop}

section Types

variable (hR : Session.TracksTypes R)

include hR

theorem pure (a : α) : Respects R (Pure.pure a : Emit α) :=
  hR.refl

theorem throw (e : GenerationError) : Respects R (MonadExcept.throw e : Emit α) :=
  hR.refl

theorem bind {m : Emit α} {f : α → Emit β} (hm : Respects R m) (hf : ∀ a, Respects R (f a)) :
    Respects R (m >>= f) := by
  intro s
  have hfirst := hm s
  rw [run_bind]
  split
  · rename_i a r hr
    rw [hr] at hfirst
    exact hR.trans hfirst (hf a r)
  · rename_i e r hr
    rwa [hr] at hfirst

theorem ofExcept (r : Except GenerationError α) : Respects R (Emit.ofExcept r) := by
  intro s
  rw [run_ofExcept]
  exact hR.refl s

theorem scope : Respects R Emit.scope :=
  hR.refl

theorem typeExpr (o : Options) (naming : CompositeNaming) (t : ResolvedType) :
    Respects R (Emit.typeExpr o naming t) := by
  intro s
  rw [run_typeExpr]
  split
  · exact hR.noteScalar s _
  · exact hR.refl s

end Types

variable (hR : Session.Tracks R)

include hR

theorem claim (key : String) : Respects R (Emit.claim key) :=
  fun s => hR.claimed s key

theorem inScope {m : Emit α} (component : String) (hm : Respects R m) :
    Respects R (Emit.inScope component m) :=
  fun s => hR.inScope component (hm (s.pushScope component))

end Respects

/-! ## Names and scopes -/

/-- A step takes names but gives none back. -/
def Keeps {α : Type} (m : Emit α) : Prop :=
  ∀ s, s.names.taken ⊆ (m.run s).2.names.taken

/-- A step leaves every scope that it enters. -/
def Restores {α : Type} (m : Emit α) : Prop :=
  ∀ s, (m.run s).2.printer.scope = s.printer.scope

theorem Keeps.subset_of_run {α : Type} {m : Emit α} (h : Keeps m) {s t : Session}
    {r : Except GenerationError α} (hrun : m.run s = (r, t)) : s.names.taken ⊆ t.names.taken := by
  have := h s
  rwa [hrun] at this

theorem Restores.scope_of_run {α : Type} {m : Emit α} (h : Restores m) {s t : Session}
    {r : Except GenerationError α} (hrun : m.run s = (r, t)) :
    t.printer.scope = s.printer.scope := by
  have := h s
  rwa [hrun] at this

end Emit

namespace Session

/-- No step gives a name back. -/
theorem tracks_taken : Tracks fun s t => s.names.taken ⊆ t.names.taken where
  refl := fun _ => List.Subset.refl _
  trans := List.Subset.trans
  claimed := fun _ _ _ hname => NameRegistry.mem_taken_insert.2 (.inr hname)
  noteScalar := by
    intro s scalar?
    rw [noteScalar_names]
    exact List.Subset.refl _
  inScope := fun _ h => h

/-- No name is taken by expressing a type. -/
theorem tracksTypes_names : TracksTypes fun s t => t.names = s.names where
  refl := fun _ => rfl
  trans := fun h h' => h'.trans h
  noteScalar := noteScalar_names

/-- Nothing is printed, and every scope is left again. -/
theorem tracks_printer : Tracks fun s t => t.printer = s.printer where
  refl := fun _ => rfl
  trans := fun h h' => h'.trans h
  claimed := fun _ _ => rfl
  noteScalar := noteScalar_printer
  inScope := by
    intro s t component h
    have hprinter : t.popScope.2.printer = t.printer.popScope.2 := rfl
    have hpushed : (s.pushScope component).printer = s.printer.pushScope component := rfl
    rw [hprinter, h, hpushed, Printer.popScope, Printer.pushScope]
    simp only [List.dropLast_concat]

end Session

/-! ## Claimed names -/

namespace Session

/-- From one session to a later one some names have been claimed: they were free, they are taken,
and none was claimed twice. -/
structure Claims (s : Session) (names : List String) (t : Session) : Prop where
  kept : s.names.taken ⊆ t.names.taken
  nodup : names.Nodup
  free : ∀ name ∈ names, name ∉ s.names.taken
  taken : ∀ name ∈ names, name ∈ t.names.taken

namespace Claims

variable {r s t : Session} {ns ms : List String}

theorem of_kept (h : s.names.taken ⊆ t.names.taken) : Claims s [] t where
  kept := h
  nodup := List.nodup_nil
  free := by simp
  taken := by simp

theorem of_names_eq (h : t.names = s.names) : Claims s [] t := by
  refine of_kept ?_
  rw [h]
  exact List.Subset.refl _

theorem trans (h : Claims r ns s) (h' : Claims s ms t) : Claims r (ns ++ ms) t where
  kept := List.Subset.trans h.kept h'.kept
  nodup := by
    refine List.nodup_append.2 ⟨h.nodup, h'.nodup, ?_⟩
    rintro name hn _ hm rfl
    exact h'.free name hm (h.taken name hn)
  free := by
    intro name hname
    rcases List.mem_append.1 hname with hn | hm
    · exact h.free name hn
    · exact fun hr => h'.free name hm (h.kept hr)
  taken := by
    intro name hname
    rcases List.mem_append.1 hname with hn | hm
    · exact h'.kept (h.taken name hn)
    · exact h'.taken name hm

/-- Only the names of the sessions matter. -/
theorem congr {s' t' : Session} (h : Claims s ns t) (hs : s'.names = s.names)
    (ht : t'.names = t.names) : Claims s' ns t' where
  kept := by rw [hs, ht]; exact h.kept
  nodup := h.nodup
  free := by rw [hs]; exact h.free
  taken := by rw [ht]; exact h.taken

/-- The step that claims a component claims its name. -/
theorem claim (s : Session) (key : String) :
    Claims s [joinName s.printer.scope (s.names.freeComponent s.printer.scope key)]
      { s with names := (s.names.claim s.printer.scope key).2 } where
  kept := tracks_taken.claimed s key
  nodup := List.nodup_singleton _
  free := by
    intro name hname
    rw [List.mem_singleton.1 hname]
    exact s.names.joinName_freeComponent_not_mem s.printer.scope key
  taken := by
    intro name hname
    rw [List.mem_singleton.1 hname]
    exact NameRegistry.mem_taken_insert.2 (.inl rfl)

end Claims
end Session
end ResponseTypes
