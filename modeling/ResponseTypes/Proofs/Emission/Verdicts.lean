import ResponseTypes.Emission.Selections
import ResponseTypes.Proofs.Variant.Inner

/-!
# What comes of a declaration

Within a number of levels a declaration is built, or it fails, or more levels are wanted.  Which of
these it is depends on the selections alone, and not on the session: the selection sets below are
declared in order, and the first that is not built decides.  More levels change nothing about what
is built or fails.

A set of which more levels are wanted, but not ever more of them, calls for a set of which one level
less is wanted.  So the sets on the way down are all different, even without the repeats in them.

## What is here

* `Verdict`, and `Verdict.all` for one declaration after the other.
* `EmissionContext.verdict`; `verdict_distinct` says that it does not depend on repeats.
* `EmissionContext.verdict_eq_or` — what more levels change.
* `EmissionContext.Wants` — how many levels are wanted, with `EmissionContext.Wants.exists_inner`.
-/

set_option autoImplicit false

namespace ResponseTypes

/-- What comes of a declaration within a number of levels. -/
inductive Verdict where
  | built
  | failed
  | endless
deriving DecidableEq, Repr

namespace Verdict

/-- What comes of two declarations, of which the second is reached if the first is built. -/
def andThen : Verdict → Verdict → Verdict
  | .built, w => w
  | .failed, _ => .failed
  | .endless, _ => .endless

/-- What comes of declarations, one after the other: the first that is not built decides. -/
def all (vs : List Verdict) : Verdict :=
  vs.foldr andThen .built

@[simp] theorem built_andThen (v : Verdict) : Verdict.built.andThen v = v := rfl

@[simp] theorem andThen_built (v : Verdict) : v.andThen .built = v := by
  cases v <;> rfl

@[simp] theorem all_nil : all [] = .built := rfl

@[simp] theorem all_cons (v : Verdict) (vs : List Verdict) : all (v :: vs) = v.andThen (all vs) :=
  rfl

theorem all_append (vs ws : List Verdict) : all (vs ++ ws) = (all vs).andThen (all ws) := by
  induction vs with
  | nil => rfl
  | cons v vs ih => cases v <;> simp [andThen, ih]

theorem all_eq_built_iff {vs : List Verdict} : all vs = .built ↔ ∀ v ∈ vs, v = .built := by
  induction vs with
  | nil => simp
  | cons v vs ih => cases v <;> simp [andThen, ih]

/-- What is declared again has been built before. -/
theorem all_map_eraseDups {α : Type} [DecidableEq α] (f : α → Verdict) (l : List α) :
    all (l.eraseDups.map f) = all (l.map f) := by
  induction l using List.reverseRecOn with
  | nil => rfl
  | append_singleton l a ih =>
    rw [eraseDups_concat, List.map_append, all_append]
    split
    · rename_i ha
      rw [ih]
      cases hall : all (l.map f) with
      | built => simp [all_eq_built_iff.1 hall _ (List.mem_map_of_mem ha)]
      | failed => rfl
      | endless => rfl
    · rw [List.map_append, all_append, ih]

/-- **With better verdicts** the same comes of all declarations, unless the first that wanted more
levels got them. -/
theorem all_eq_or {α : Type} {f g : α → Verdict} {l : List α}
    (h : ∀ a ∈ l, f a = g a ∨ f a = .endless) :
    all (l.map f) = all (l.map g) ∨
      all (l.map f) = .endless ∧ ∃ a ∈ l, f a = .endless ∧ g a ≠ .endless := by
  induction l with
  | nil => exact .inl rfl
  | cons a l ih =>
    obtain ⟨ha, hl⟩ := List.forall_mem_cons.1 h
    rw [List.map_cons, List.map_cons, all_cons, all_cons]
    by_cases heq : f a = g a
    · rw [heq]
      cases hg : g a with
      | failed => exact .inl rfl
      | endless => exact .inl rfl
      | built =>
        rcases ih hl with hsame | ⟨hendless, b, hb, hmore⟩
        · exact .inl hsame
        · exact .inr ⟨hendless, b, List.mem_cons_of_mem a hb, hmore⟩
    · have hendless := ha.resolve_left heq
      refine .inr ⟨by rw [hendless]; rfl, a, List.mem_cons_self, hendless, fun hg => ?_⟩
      exact heq (hendless.trans hg.symm)

end Verdict

namespace EmissionContext

/-- **What comes of the declaration** of a selection set within a number of levels. -/
def verdict (x : EmissionContext) : Nat → SelectionSet → Verdict
  | 0, _ => .endless
  | levels + 1, set =>
    if x.collector.collectsAll set then
      Verdict.all ((x.collector.inner set).map (x.verdict levels))
    else .failed

variable {x : EmissionContext}

/-- It does not depend on repeats. -/
theorem verdict_distinct (x : EmissionContext) (levels : Nat) (set : SelectionSet) :
    x.verdict levels set.distinct = x.verdict levels set := by
  induction levels generalizing set with
  | zero => rfl
  | succ levels ih =>
    have hmap : ∀ sets : List SelectionSet, sets.map (x.verdict levels)
        = (sets.map SelectionSet.distinct).map (x.verdict levels) := by
      intro sets
      rw [List.map_map]
      exact List.map_congr_left fun below _ => (ih below).symm
    rw [verdict, verdict, Collector.collectsAll_distinct, hmap, hmap (x.collector.inner set),
      Collector.map_distinct_inner]

/-- **One level more** changes a verdict only if more levels were wanted. -/
theorem verdict_eq_or (x : EmissionContext) (levels : Nat) (set : SelectionSet) :
    x.verdict levels set = x.verdict (levels + 1) set ∨ x.verdict levels set = .endless := by
  induction levels generalizing set with
  | zero => exact .inr rfl
  | succ levels ih =>
    rw [verdict, verdict]
    split
    · exact (Verdict.all_eq_or fun below _ => ih below).imp_right And.left
    · exact .inl rfl

/-- More levels do not change what is built or fails. -/
theorem verdict_eq_of_le {levels more : Nat} (hle : levels ≤ more) {set : SelectionSet}
    (h : x.verdict levels set ≠ .endless) : x.verdict more set = x.verdict levels set := by
  induction hle with
  | refl => rfl
  | step _ ih =>
    rename_i more _
    rw [← ih, eq_comm]
    exact (x.verdict_eq_or more set).resolve_right (ih ▸ h)

/-! ## How many levels are wanted -/

/-- More than so many levels are wanted for a selection set, and not one more than that. -/
structure Wants (x : EmissionContext) (set : SelectionSet) (levels : Nat) : Prop where
  more : x.verdict levels set = .endless
  enough : x.verdict (levels + 1) set ≠ .endless

/-- If a verdict can be reached at all, some number of levels is wanted. -/
theorem exists_wants {set : SelectionSet} {few many : Nat} (hfew : x.verdict few set = .endless)
    (hmany : x.verdict many set ≠ .endless) : ∃ levels, few ≤ levels ∧ x.Wants set levels := by
  induction many with
  | zero => exact absurd rfl hmany
  | succ many ih =>
    by_cases hone : x.verdict many set = .endless
    · refine ⟨many, Nat.le_of_not_lt fun hlt => ?_, hone, hmany⟩
      exact hmany ((verdict_eq_of_le hlt hmany).symm.trans hfew)
    · exact ih hone

namespace Wants

variable {set : SelectionSet} {levels levels' : Nat}

/-- Without the repeats in a set the same number of levels is wanted. -/
theorem distinct (h : x.Wants set levels) : x.Wants set.distinct levels where
  more := (x.verdict_distinct levels set).trans h.more
  enough := by
    rw [verdict_distinct]
    exact h.enough

/-- No two numbers of levels are wanted. -/
theorem le (h : x.Wants set levels) (h' : x.Wants set levels') : levels ≤ levels' := by
  by_contra hlt
  exact h'.enough ((verdict_eq_of_le (Nat.lt_of_not_le hlt) h'.enough).symm.trans h.more)

/-- **One level less is wanted** of one of the sets that are called for. -/
theorem exists_inner (h : x.Wants set (levels + 1)) :
    ∃ below ∈ x.collector.inner set, x.Wants below levels := by
  obtain ⟨hmore, henough⟩ := h
  rw [verdict] at hmore henough
  split at hmore
  · rename_i hcollects
    rw [if_pos hcollects] at henough
    rcases Verdict.all_eq_or fun below _ => x.verdict_eq_or levels below with
      hsame | ⟨-, below, hbelow, hmore', henough'⟩
    · exact absurd (hsame.symm.trans hmore) henough
    · exact ⟨below, hbelow, hmore', henough'⟩
  · cases hmore

end Wants
end EmissionContext
end ResponseTypes
