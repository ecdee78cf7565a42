import ResponseTypes.Proofs.Emission.Bounding
import ResponseTypes.Proofs.Emission.Ending

/-!
# More levels

How a run ends is what the verdict on its selection set says, whatever the session and the names.
And a run that does not fail for want of levels is the same run within more levels.  So if there is
a number of levels within which a declaration is built or fails for a reason of its own, the same
happens within the levels that are allowed for: the count of levels is never the reason.

## What is here

* `Verdict.Fits` and `Emit.Meets` — results and steps that are of the kind that a verdict says.
* `EmissionContext.meets_declarationWithin` — the verdict on a declaration.
* `Emit.Extends` — the same step within more levels;
  `EmissionContext.extends_declarationWithin`.
* `EmissionContext.run_levelsFor` — the levels that are allowed for suffice.
-/

set_option autoImplicit false

namespace ResponseTypes

/-! ## Results -/

/-- A result is of the kind that a verdict says, and a value has a property. -/
inductive Verdict.Fits {α : Type} (Q : α → Prop) : Verdict → Except GenerationError α → Prop where
  | built {a : α} (h : Q a) : Fits Q .built (.ok a)
  | failed {e : GenerationError} (h : ¬ e.IsEndless) : Fits Q .failed (.error e)
  | endless {e : GenerationError} (h : e.IsEndless) : Fits Q .endless (.error e)

namespace Emit

/-- A step fails for want of levels. -/
def RunsOut {α : Type} (m : Emit α) (s : Session) : Prop :=
  ∃ err, (m.run s).1 = .error err ∧ err.IsEndless

theorem RunsOut.bind {α β : Type} {m : Emit α} {s : Session} (h : m.RunsOut s) (f : α → Emit β) :
    (m >>= f).RunsOut s := by
  obtain ⟨err, herr, hendless⟩ := h
  refine ⟨err, ?_, hendless⟩
  rw [run_bind]
  rcases hrun : m.run s with ⟨r, t⟩
  rw [hrun] at herr
  obtain rfl : r = .error err := herr
  rfl

theorem RunsOut.bind_of_run_eq_ok {α β : Type} {m : Emit α} {f : α → Emit β} {s t : Session}
    {a : α} (hm : m.run s = (.ok a, t)) (h : (f a).RunsOut t) : (m >>= f).RunsOut s := by
  rw [RunsOut, run_bind, hm]
  exact h

/-- Whatever the session, the result of a step is of the kind that a verdict says. -/
def Meets {α : Type} (v : Verdict) (Q : α → Prop) (m : Emit α) : Prop :=
  ∀ s, v.Fits Q (m.run s).1

namespace Meets

variable {α β : Type} {v w : Verdict} {Q : α → Prop} {R : β → Prop}

theorem pure {a : α} (h : Q a) : Meets .built Q (Pure.pure a : Emit α) :=
  fun _ => .built h

/-- **Steps one after the other**: the first that is not built decides. -/
theorem bind {m : Emit α} {f : α → Emit β} (hm : Meets v Q m) (hf : ∀ a, Q a → Meets w R (f a)) :
    Meets (v.andThen w) R (m >>= f) := by
  intro s
  have hfirst := hm s
  rw [run_bind]
  rcases hrun : m.run s with ⟨r, t⟩
  rw [hrun] at hfirst
  cases hfirst with
  | built h => exact hf _ h t
  | failed h => exact .failed h
  | endless h => exact .endless h

theorem inScope {component : String} {m : Emit α} (hm : Meets v Q m) :
    Meets v Q (Emit.inScope component m) :=
  fun s => hm (s.pushScope component)

theorem scope : Meets .built (fun _ => True) Emit.scope :=
  fun _ => .built trivial

theorem claim (key : String) : Meets .built (fun _ => True) (Emit.claim key) :=
  fun _ => .built trivial

theorem typeExpr (o : Options) (naming : CompositeNaming) {t : ResolvedType} (h : t.WellWrapped) :
    Meets .built (fun _ => True) (Emit.typeExpr o naming t) := by
  intro s
  obtain ⟨e, he⟩ := o.exists_typeExpr naming h
  rw [run_typeExpr, he]
  exact .built trivial

/-- A step fails for want of levels where the verdict is so. -/
theorem runsOut_iff {m : Emit α} (hm : Meets v Q m) (s : Session) :
    m.RunsOut s ↔ v = .endless := by
  have h := hm s
  rw [RunsOut]
  generalize (m.run s).1 = r at h
  cases h with
  | built _ => simp
  | failed h => simpa using h
  | endless h => simpa using h

/-- A value shows that something was built. -/
theorem eq_built {m : Emit α} (hm : Meets v Q m) : Meets v (fun _ => v = .built) m := by
  intro s
  have h := hm s
  generalize (m.run s).1 = r at h ⊢
  cases h with
  | built _ => exact .built rfl
  | failed h => exact .failed h
  | endless h => exact .endless h

end Meets
end Emit

/-- The type of a field is resolved, and selections are made on its value if that is composite. -/
def Field.Expressible (f : Field) (set? : Option SelectionSet) : Prop :=
  f.WellTyped set? ∧ f.type.WellWrapped

namespace EmissionContext

variable {x : EmissionContext}

/-! ## One level -/

section Levels

variable {declare : String → SelectionSet → Emit Declaration} {v : SelectionSet → Verdict}

/-- The declarations in a table have been built. -/
def AllBuilt (v : SelectionSet → Verdict) (table : NestedTable) : Prop :=
  ∀ e ∈ table, v e.set = .built

/-- **One field** is built if the selections on its value can be declared. -/
theorem meets_propertyType {table : NestedTable} (htable : AllBuilt v table) {m : MergedField}
    (hm : m.WellTyped) (hwrapped : m.type.WellWrapped)
    (hdeclare : ∀ below, m.set? = some below → ∀ name,
      Emit.Meets (v below) (fun _ => True) (declare name below)) :
    Emit.Meets (Verdict.all (m.set?.toList.map v)) (fun r => AllBuilt v r.2)
      (x.propertyType declare table m) := by
  have hplain : ∀ naming, Emit.Meets .built (fun r : TypeExpr × NestedTable => AllBuilt v r.2)
      (Emit.typeExpr x.options naming m.type >>= fun type => pure (type, table)) :=
    fun naming => (Emit.Meets.typeExpr x.options naming hwrapped).bind fun _ _ => .pure htable
  have hnone : m.type.isComposite = false → m.set? = none := by
    intro hcomposite
    rw [← Option.not_isSome_iff_eq_none, ← hm.composite, hcomposite]
    exact Bool.false_ne_true
  rw [propertyType]
  split
  · rename_i names hnarrowed
    have hcomposite : m.type.isComposite = false := by
      by_contra hcomposite
      have hliterals := hm.literals?_eq_none (by simpa using hcomposite)
      cases hnarrowed.symm.trans hliterals
    rw [hnone hcomposite]
    exact .pure htable
  · rename_i below _ hset _
    rw [hset, Option.toList_some, List.map_singleton, Verdict.all_cons, Verdict.all_nil,
      Verdict.andThen_built]
    split
    · rename_i name hname
      obtain ⟨e, he, -, rfl, rfl⟩ := exists_entry_of_name? hname
      rw [htable e he]
      exact hplain _
    · refine (Emit.Meets.claim m.key).bind fun component _ => ?_
      refine Emit.Meets.scope.bind fun scope _ => ?_
      rw [← (v below).andThen_built]
      refine (Emit.Meets.inScope (hdeclare below hset _)).eq_built.bind fun d hbuilt => ?_
      refine (Emit.Meets.typeExpr x.options _ hwrapped).bind fun type _ => .pure ?_
      exact List.forall_mem_append.2 ⟨htable, List.forall_mem_singleton.2 hbuilt⟩
  · rename_i hnarrowed hother
    have hcomposite : m.type.isComposite = false := by
      by_contra hcomposite
      have hcomposite : m.type.isComposite = true := by simpa using hcomposite
      obtain ⟨below, hset⟩ := Option.isSome_iff_exists.1 (hm.composite.symm.trans hcomposite)
      exact hother below hset hcomposite
    rw [hnone hcomposite]
    exact Emit.Meets.scope.bind fun scope _ => hplain _

theorem meets_properties {table : NestedTable} (htable : AllBuilt v table) {ms : List MergedField}
    (hms : ∀ m ∈ ms, m.WellTyped ∧ m.type.WellWrapped)
    (hdeclare : ∀ m ∈ ms, ∀ below, m.set? = some below → ∀ name,
      Emit.Meets (v below) (fun _ => True) (declare name below)) :
    Emit.Meets (Verdict.all ((ms.filterMap MergedField.set?).map v)) (fun r => AllBuilt v r.2)
      (x.properties declare table ms) := by
  induction ms generalizing table with
  | nil => exact .pure htable
  | cons m ms ih =>
    obtain ⟨⟨hm, hwrapped⟩, hms⟩ := List.forall_mem_cons.1 hms
    obtain ⟨hdeclare, hrest⟩ := List.forall_mem_cons.1 hdeclare
    have hsets : (m :: ms).filterMap MergedField.set?
        = m.set?.toList ++ ms.filterMap MergedField.set? := by
      rw [List.filterMap_cons]
      cases m.set? <;> rfl
    rw [properties, hsets, List.map_append, Verdict.all_append]
    refine (meets_propertyType htable hm hwrapped hdeclare).bind fun r hr => ?_
    rw [← (Verdict.all _).andThen_built]
    exact (ih hr hms hrest).bind fun q hq => .pure hq

theorem meets_shapes {table : NestedTable} (htable : AllBuilt v table) {vs : List Variant}
    (hvs : ∀ w ∈ vs, ∀ m ∈ w.fields, m.WellTyped ∧ m.type.WellWrapped)
    (hdeclare : ∀ w ∈ vs, ∀ m ∈ w.fields, ∀ below, m.set? = some below → ∀ name,
      Emit.Meets (v below) (fun _ => True) (declare name below)) :
    Emit.Meets (Verdict.all (((vs.flatMap Variant.fields).filterMap MergedField.set?).map v))
      (fun r => AllBuilt v r.2) (x.shapes declare table vs) := by
  induction vs generalizing table with
  | nil => exact .pure htable
  | cons w vs ih =>
    obtain ⟨hw, hvs⟩ := List.forall_mem_cons.1 hvs
    obtain ⟨hdeclare, hrest⟩ := List.forall_mem_cons.1 hdeclare
    rw [shapes, List.flatMap_cons, List.filterMap_append, List.map_append, Verdict.all_append]
    refine (meets_properties htable hw hdeclare).bind fun r hr => ?_
    rw [← (Verdict.all _).andThen_built]
    exact (ih hr hvs hrest).bind fun q hq => .pure hq

end Levels

/-! ## All levels -/

/-- The fields of variants are expressible, and so are the selections on their values. -/
theorem expressible_of_variants (hfragments : ∀ g ∈ x.fragments, g.set.All Field.Expressible)
    {set : SelectionSet} (hset : set.All Field.Expressible) {vs : List Variant}
    (hvs : x.collector.variants set = .ok vs) {w : Variant} (hw : w ∈ vs) {m : MergedField}
    (hm : m ∈ w.fields) :
    (m.WellTyped ∧ m.type.WellWrapped) ∧
      ∀ below, m.set? = some below → below.All Field.Expressible := by
  have hwell : m.WellTyped := by
    refine Collector.wellTyped_of_variants (hset.imp fun _ _ h => h.1) (fun g hg => ?_)
      hvs w hw m hm
    exact (hfragments g hg).imp fun _ _ h => h.1
  refine ⟨⟨hwell, ?_⟩, fun below hbelow => ?_⟩
  · obtain ⟨object?, -, c, hc, n, hn, hshape⟩ := Collector.exists_shape_of_mem_variants hvs hw hm
    obtain ⟨f, es, ⟨p, set?, hmem⟩, rfl, hes⟩ :=
      Collector.exists_fields_of_mem hset hfragments hc hn
    obtain ⟨q, g, set?', heq, htype, hg, -⟩ := hes _ hmem
    have hftype : f.type = m.type := (MergedField.shape_eq_iff.1 hshape).2.1
    rw [← hftype, ← htype]
    exact hg.2
  · exact (Collector.reaches_of_mem_variants hvs hw hm hbelow).all hset hfragments

/-- **The verdict on a selection set** says how its declaration ends, in every session. -/
theorem meets_declarationWithin (hfragments : ∀ g ∈ x.fragments, g.set.All Field.Expressible)
    (levels : Nat) (name : String) (description? : Option String) {set : SelectionSet}
    (hset : set.All Field.Expressible) :
    Emit.Meets (x.verdict levels set) (fun _ => True)
      (x.declarationWithin levels name description? set) := by
  induction levels generalizing name description? set with
  | zero => exact fun s => .endless ⟨name, rfl⟩
  | succ levels ih =>
    rw [declarationWithin_succ, declarationBy, verdict]
    cases hvs : x.collector.variants set with
    | error err =>
      have hnone : ¬ x.collector.collectsAll set = true := by
        rw [Collector.collectsAll_iff, hvs]
        rintro ⟨vs, ⟨⟩⟩
      rw [if_neg hnone]
      obtain ⟨object?, -, hc⟩ := Collector.exists_collect_eq_error hvs
      exact fun s => .failed (Collector.not_isEndless_of_collect hc)
    | ok vs =>
      rw [if_pos (Collector.collectsAll_iff.2 ⟨vs, hvs⟩), ← Verdict.all_map_eraseDups,
        ← Collector.eraseDups_inner hvs, Verdict.all_map_eraseDups]
      have hfields := fun w hw m hm => expressible_of_variants hfragments hset hvs (w := w) hw
        (m := m) hm
      rw [Emit.ofExcept, pure_bind, ← (Verdict.all _).andThen_built]
      refine (meets_shapes (by simp [AllBuilt]) (fun w hw m hm => (hfields w hw m hm).1)
        fun w hw m hm below hbelow name => ?_).bind fun r _ => .pure trivial
      exact ih name none ((hfields w hw m hm).2 below hbelow)

end EmissionContext

/-! ## More levels -/

namespace Emit

/-- Wherever a step does not fail for want of levels, another one does the same. -/
def Extends {α : Type} (m m' : Emit α) : Prop :=
  ∀ s, m'.run s = m.run s ∨ m.RunsOut s

namespace Extends

variable {α β : Type} {m m' : Emit α}

theorem refl (m : Emit α) : Extends m m :=
  fun _ => .inl rfl

theorem trans {m'' : Emit α} (h : Extends m m') (h' : Extends m' m'') : Extends m m'' := by
  intro s
  rcases h s with heq | hendless
  · rcases h' s with heq' | hendless
    · exact .inl (heq'.trans heq)
    · rw [RunsOut, heq] at hendless
      exact .inr hendless
  · exact .inr hendless

theorem bind {f f' : α → Emit β} (hm : Extends m m') (hf : ∀ a, Extends (f a) (f' a)) :
    Extends (m >>= f) (m' >>= f') := by
  intro s
  rcases hm s with heq | hendless
  · rw [run_bind, run_bind, heq]
    rcases hrun : m.run s with ⟨e | a, t⟩
    · exact .inl rfl
    · exact (hf a t).imp_right (.bind_of_run_eq_ok hrun)
  · exact .inr (hendless.bind f)

theorem inScope (component : String) (hm : Extends m m') :
    Extends (Emit.inScope component m) (Emit.inScope component m') := by
  intro s
  rcases hm (s.pushScope component) with heq | hendless
  · exact .inl (congrArg (fun r : Except GenerationError α × Session => (r.1, r.2.popScope.2)) heq)
  · exact .inr hendless

end Extends
end Emit

namespace EmissionContext

variable {x : EmissionContext}

section Levels

variable {declare declare' : String → SelectionSet → Emit Declaration}
  (hdeclare : ∀ name set, Emit.Extends (declare name set) (declare' name set))

include hdeclare

theorem extends_propertyType (table : NestedTable) (m : MergedField) :
    Emit.Extends (x.propertyType declare table m) (x.propertyType declare' table m) := by
  rw [propertyType, propertyType]
  split
  · exact .refl _
  · split
    · exact .refl _
    · refine (Emit.Extends.refl _).bind fun component => (Emit.Extends.refl _).bind fun scope => ?_
      exact ((hdeclare _ _).inScope component).bind fun d => .refl _
  · exact .refl _

theorem extends_properties (table : NestedTable) (ms : List MergedField) :
    Emit.Extends (x.properties declare table ms) (x.properties declare' table ms) := by
  induction ms generalizing table with
  | nil => exact .refl _
  | cons m ms ih =>
    rw [properties, properties]
    exact (extends_propertyType hdeclare table m).bind fun r => (ih r.2).bind fun q => .refl _

theorem extends_shapes (table : NestedTable) (vs : List Variant) :
    Emit.Extends (x.shapes declare table vs) (x.shapes declare' table vs) := by
  induction vs generalizing table with
  | nil => exact .refl _
  | cons v vs ih =>
    rw [shapes, shapes]
    exact (extends_properties hdeclare table v.fields).bind fun r => (ih r.2).bind fun q => .refl _

end Levels

/-- **One level more** changes a run only if more levels were wanted. -/
theorem extends_declarationWithin_succ (levels : Nat) (name : String) (description? : Option String)
    (set : SelectionSet) :
    Emit.Extends (x.declarationWithin levels name description? set)
      (x.declarationWithin (levels + 1) name description? set) := by
  induction levels generalizing name description? set with
  | zero => exact fun s => .inr ⟨_, rfl, name, rfl⟩
  | succ levels ih =>
    rw [declarationWithin_succ, declarationWithin_succ, declarationBy, declarationBy]
    refine (Emit.Extends.refl _).bind fun vs => ?_
    exact (extends_shapes (fun name below => ih name none below) [] vs).bind fun r => .refl _

theorem extends_declarationWithin {levels more : Nat} (hle : levels ≤ more) (name : String)
    (description? : Option String) (set : SelectionSet) :
    Emit.Extends (x.declarationWithin levels name description? set)
      (x.declarationWithin more name description? set) := by
  induction hle with
  | refl => exact .refl _
  | step _ ih => exact ih.trans (extends_declarationWithin_succ _ name description? set)

/-- **The levels that are allowed for suffice.**  If the declaration of a selection set does not
fail for want of levels within some number of them, it is the same within those that are allowed
for: the same declaration or the same error, and the same session afterwards. -/
theorem run_levelsFor (hfragments : ∀ g ∈ x.fragments, g.set.All Field.Expressible)
    {set : SelectionSet} (hset : set.All Field.Expressible) {levels : Nat} {name : String}
    {description? : Option String} {s : Session}
    (hends : ¬ (x.declarationWithin levels name description? set).RunsOut s) :
    (x.declarationWithin (x.levelsFor set) name description? set).run s
      = (x.declarationWithin levels name description? set).run s := by
  have hverdict : ∀ n,
      (x.declarationWithin n name description? set).RunsOut s ↔ x.verdict n set = .endless :=
    fun n => (meets_declarationWithin hfragments n name description? hset).runsOut_iff s
  have henough : ¬ (x.declarationWithin (x.levelsFor set) name description? set).RunsOut s := by
    rw [hverdict] at hends ⊢
    rwa [verdict_levelsFor hends]
  rcases Nat.le_total levels (x.levelsFor set) with hle | hle
  · exact (extends_declarationWithin hle name description? set s).resolve_right hends
  · exact ((extends_declarationWithin hle name description? set s).resolve_right henough).symm

end EmissionContext
end ResponseTypes
