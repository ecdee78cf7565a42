import ResponseTypes.Proofs.Emission.Ending

/-!
# What emission leaves alone

Declarations are built with one session for all of them.  On the way down components are put on the
scope, and whatever happens further in, they are taken off again; nothing is printed.  So a
declaration that fails deep inside does not rename the ones that come after it.

The name of a nested declaration is made from the scope in which it was claimed, and its component
is the next one put on the scope; so scope and name always fit.  To say so of every call, one puts a
check before each of them and does something else where it fails.  Whatever that is, it is never
done.

## What is here

* `Session.Extends` — from one session to another, the printer is as it was, and names and scalars
  have only been added; `Session.tracks_extends`.
* `Emit.SameIn` — steps that do the same in a scope.
* `EmissionContext.declarationChecked` — the declaration of a selection set with a check before each
  call.
* `EmissionContext.propertyType_sameIn`, `properties_sameIn`, `shapes_sameIn`,
  `declarationBy_sameIn` — one level.
* `EmissionContext.run_declarationChecked` — no check fails.
* `EmissionContext.emission_frames` — emission as a whole.
-/

set_option autoImplicit false

namespace ResponseTypes

/-! ## Sessions that extend each other -/

/-- From one session to another, the printer with its text, its indentation, its scope and its queue
is as it was, and names and scalars have only been added. -/
structure Session.Extends (s t : Session) : Prop where
  printer : t.printer = s.printer
  names : s.names.taken ⊆ t.names.taken
  unmapped : s.unmapped <+: t.unmapped

theorem Session.prefix_unmapped_noteScalar (s : Session) (scalar? : Option String) :
    s.unmapped <+: (s.noteScalar scalar?).unmapped := by
  cases scalar? with
  | none => exact List.prefix_rfl
  | some name =>
    rw [noteScalar]
    split
    · exact List.prefix_rfl
    · exact List.prefix_append _ _

/-- **Every step extends the session**, and so does one inside a component of the scope. -/
theorem Session.tracks_extends : Tracks Extends where
  refl := fun _ => ⟨rfl, List.Subset.refl _, List.prefix_rfl⟩
  trans := fun h h' => ⟨h'.printer.trans h.printer, List.Subset.trans h.names h'.names,
    h.unmapped.trans h'.unmapped⟩
  claimed := fun s key => ⟨rfl, tracks_taken.claimed s key, List.prefix_rfl⟩
  noteScalar := fun s scalar? => ⟨s.noteScalar_printer scalar?, tracks_taken.noteScalar s scalar?,
    s.prefix_unmapped_noteScalar scalar?⟩
  inScope := fun component h => ⟨tracks_printer.inScope component h.printer, h.names, h.unmapped⟩

namespace Emit

/-! ## Steps in a scope -/

variable {α β : Type} {scope : List String}

/-- Two steps do the same wherever the scope is a given one. -/
def SameIn (scope : List String) (m m' : Emit α) : Prop :=
  ∀ s : Session, s.printer.scope = scope → m.run s = m'.run s

theorem SameIn.refl (scope : List String) (m : Emit α) : SameIn scope m m :=
  fun _ _ => rfl

theorem SameIn.bind {m m' : Emit α} {f f' : α → Emit β} (hm : SameIn scope m m')
    (hprinter : Respects (fun s t => t.printer = s.printer) m)
    (hf : ∀ a, SameIn scope (f a) (f' a)) : SameIn scope (m >>= f) (m' >>= f') := by
  rintro s rfl
  have hs := hprinter s
  rw [run_bind, run_bind, ← hm s rfl]
  split
  · rename_i a r hr
    rw [hr] at hs
    exact hf a r (congrArg Printer.scope hs)
  · rfl

/-- To look at the scope is to find it. -/
theorem SameIn.scope_bind {f f' : List String → Emit β} (hf : SameIn scope (f scope) (f' scope)) :
    SameIn scope (Emit.scope >>= f) (Emit.scope >>= f') := by
  rintro s rfl
  exact hf s rfl

theorem SameIn.inScope {m m' : Emit α} {component : String}
    (h : SameIn (scope ++ [component]) m m') :
    SameIn scope (Emit.inScope component m) (Emit.inScope component m') := by
  rintro s rfl
  have hinside := h (s.pushScope component) rfl
  have hresult := congrArg Prod.fst hinside
  have hsession := congrArg (fun r => r.2.popScope.2) hinside
  exact Prod.ext hresult hsession

/-- Does one thing where the components of the scope make up a name, and another where they do not.
-/
def whereNamed (name : String) (body otherwise : Emit α) : Emit α := do
  let scope ← Emit.scope
  if String.intercalate nameSeparator scope = name then body else otherwise

theorem run_whereNamed {name : String} {body otherwise : Emit α} {s : Session}
    (h : String.intercalate nameSeparator s.printer.scope = name) :
    (whereNamed name body otherwise).run s = body.run s := by
  rw [whereNamed, run_bind, run_scope]
  simp only [if_pos h]

end Emit

namespace EmissionContext

variable {x : EmissionContext}

/-! ## Checks -/

/-- The declaration of a selection set, where it is checked before it is begun, and before each one
inside is begun, that the components of the scope make up the name.  Where they do not, something
else is done. -/
def declarationChecked (x : EmissionContext)
    (otherwise : String → SelectionSet → Emit Declaration) :
    Nat → String → Option String → SelectionSet → Emit Declaration
  | 0, name, _, set => Emit.whereNamed name (throw (.endlessNesting name)) (otherwise name set)
  | levels + 1, name, description?, set =>
    Emit.whereNamed name
      (x.declarationBy (fun name below => x.declarationChecked otherwise levels name none below)
        name description? set)
      (otherwise name set)

/-! ## One level -/

section Levels

variable {declare declare' : String → SelectionSet → Emit Declaration} {scope : List String}
  (hprinter : ∀ name below, Emit.Respects (fun s t => t.printer = s.printer) (declare name below))
  (hdeclare : ∀ component below, Emit.SameIn (scope ++ [component])
    (declare (joinName scope component) below) (declare' (joinName scope component) below))

include hprinter hdeclare

/-- **One field**: what it declares is named by the scope in which it is declared. -/
theorem propertyType_sameIn (table : NestedTable) (m : MergedField) :
    Emit.SameIn scope (x.propertyType declare table m) (x.propertyType declare' table m) := by
  rw [propertyType, propertyType]
  split
  · exact .refl _ _
  · split
    · exact .refl _ _
    · refine .bind (.refl _ _) (.claim Session.tracks_printer _) fun component => .scope_bind ?_
      exact .bind (hdeclare component _).inScope (.inScope Session.tracks_printer _ (hprinter _ _))
        fun _ => .refl _ _
  · exact .refl _ _

theorem properties_sameIn (table : NestedTable) (ms : List MergedField) :
    Emit.SameIn scope (x.properties declare table ms) (x.properties declare' table ms) := by
  induction ms generalizing table with
  | nil => exact .refl _ _
  | cons m ms ih =>
    rw [properties, properties]
    refine .bind (propertyType_sameIn hprinter hdeclare table m)
      (respects_propertyType Session.tracks_printer hprinter table m) fun a => ?_
    exact .bind (ih a.2) (respects_properties Session.tracks_printer hprinter a.2 ms)
      fun _ => .refl _ _

theorem shapes_sameIn (table : NestedTable) (vs : List Variant) :
    Emit.SameIn scope (x.shapes declare table vs) (x.shapes declare' table vs) := by
  induction vs generalizing table with
  | nil => exact .refl _ _
  | cons v vs ih =>
    rw [shapes, shapes]
    refine .bind (properties_sameIn hprinter hdeclare table v.fields)
      (respects_properties Session.tracks_printer hprinter table v.fields) fun a => ?_
    exact .bind (ih a.2) (respects_shapes Session.tracks_printer hprinter a.2 vs)
      fun _ => .refl _ _

theorem declarationBy_sameIn (name : String) (description? : Option String) (set : SelectionSet) :
    Emit.SameIn scope (x.declarationBy declare name description? set)
      (x.declarationBy declare' name description? set) := by
  rw [declarationBy, declarationBy]
  refine .bind (.refl _ _) (.ofExcept Session.tracks_printer.types _) fun vs => ?_
  exact .bind (shapes_sameIn hprinter hdeclare [] vs)
    (respects_shapes Session.tracks_printer hprinter [] vs) fun _ => .refl _ _

end Levels

/-! ## All levels -/

/-- **No check fails**: wherever the declaration of a selection set is begun, the scope makes up its
name, if it does so at the start. -/
theorem run_declarationChecked (otherwise : String → SelectionSet → Emit Declaration)
    (levels : Nat) {name : String} (description? : Option String) (set : SelectionSet)
    {s : Session} (hname : String.intercalate nameSeparator s.printer.scope = name) :
    (x.declarationChecked otherwise levels name description? set).run s
      = (x.declarationWithin levels name description? set).run s := by
  induction levels generalizing name description? set s with
  | zero => rw [declarationChecked, Emit.run_whereNamed hname, declarationWithin]
  | succ levels ih =>
    rw [declarationChecked, Emit.run_whereNamed hname, declarationWithin_succ]
    have hbelow : ∀ component below, Emit.SameIn (s.printer.scope ++ [component])
        (x.declarationWithin levels (joinName s.printer.scope component) none below)
        (x.declarationChecked otherwise levels (joinName s.printer.scope component) none
          below) := by
      intro component below r hr
      -- A name is joined in just the way in which the scope is read.
      exact (ih none below (by rw [hr]; rfl)).symm
    exact (declarationBy_sameIn
      (fun _ _ => respects_declarationWithin Session.tracks_printer _ _ _ _)
      hbelow name description? set s rfl).symm

/-- **Emission leaves the session in order.**  Whether the declaration of a selection set succeeds
or fails, in a component of the scope or not, the printer is as it was, and names and scalars have
only been added; this does not depend on the number of levels that is allowed for.  And wherever a
declaration is begun on the way, the components of the scope make up its name, if they do so at the
start: a check of this before each declaration would change nothing, whatever were done where it
fails. -/
theorem emission_frames (x : EmissionContext) (name : String) (description? : Option String)
    (set : SelectionSet) :
    (∀ levels, Emit.Respects Session.Extends (x.declarationWithin levels name description? set)) ∧
    Emit.Respects Session.Extends (x.selectionDeclaration name description? set) ∧
    (∀ component, Emit.Respects Session.Extends
      (Emit.inScope component (x.selectionDeclaration name description? set))) ∧
    ∀ (otherwise : String → SelectionSet → Emit Declaration) (levels : Nat) (s : Session),
      String.intercalate nameSeparator s.printer.scope = name →
      (x.declarationChecked otherwise levels name description? set).run s
        = (x.declarationWithin levels name description? set).run s := by
  have hextends : ∀ levels, Emit.Respects Session.Extends
      (x.declarationWithin levels name description? set) :=
    fun levels => respects_declarationWithin Session.tracks_extends levels name description? set
  exact ⟨hextends, hextends _,
    fun component => .inScope Session.tracks_extends component (hextends _),
    fun otherwise levels s => run_declarationChecked otherwise levels description? set⟩

end EmissionContext

/-! ## A quarrel -/

/-- Equipment of which the name and the weight are asked for under one key. -/
def quarrel : SelectionSet where
  parentType := "Query"
  possible := ["Query"]
  selections := [.branch { name := "equipment", type := .named .object "Equipment" }
    { parentType := "Equipment"
      possible := ["Equipment"]
      selections := [
        .leaf { name := "name", type := .named .scalar "String" },
        .leaf { name := "weight", alias? := some "name", type := .named .scalar "Int" }] }]

/-- A schema without fragments. -/
def quarreling : EmissionContext where
  schema := Schema.ofQueryType "Query"
  fragments := []
  options := {}

/-- A declaration that fails inside leaves the scope again; the name that was claimed for it stays
taken. -/
theorem emission_frames_quarrel :
    ∃ t, (quarreling.selectionDeclaration "KitQuery" none quarrel).run
        ((Session.start {}).pushScope "KitQuery")
          = (.error (.fieldMergeConflict "name" (.named .scalar "String") (.named .scalar "Int")),
              t) ∧
      t.names.taken = ["KitQuery_equipment"] ∧ t.printer.scope = ["KitQuery"] ∧
      (quarreling.declarationChecked (fun name _ => throw (.endlessNesting name)) 2 "KitQuery" none
        quarrel).run ((Session.start {}).pushScope "KitQuery")
        = (quarreling.declarationWithin 2 "KitQuery" none quarrel).run
          ((Session.start {}).pushScope "KitQuery") := by
  obtain ⟨t, hrun, htaken⟩ : ∃ t,
      (quarreling.selectionDeclaration "KitQuery" none quarrel).run
        ((Session.start {}).pushScope "KitQuery")
          = (.error (.fieldMergeConflict "name" (.named .scalar "String") (.named .scalar "Int")),
              t) ∧
      t.names.taken = ["KitQuery_equipment"] := ⟨_, by cbv, by cbv⟩
  obtain ⟨-, hextends, -, hchecked⟩ :=
    EmissionContext.emission_frames quarreling "KitQuery" none quarrel
  have hprinter := (hextends ((Session.start {}).pushScope "KitQuery")).printer
  rw [hrun] at hprinter
  refine ⟨t, hrun, htaken, ?_, hchecked _ 2 _ (by decide)⟩
  rw [hprinter]
  rfl

end ResponseTypes
