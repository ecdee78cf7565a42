import ResponseTypes.Proofs.Results
import ResponseTypes.TypeExpr.Naming

/-!
# Expressions mirror types

The expression of a type has the same lists as the type, and is nullable where the type is not
marked as non-null.  What stands at its heart depends on the named type alone.

## What is here

* `TypeExpr.mirror` — the expression with the wrappers of a type around a heart.
* `Options.typeExpr_eq_mirror` — the expressions of types are of this form.
-/

set_option autoImplicit false

namespace ResponseTypes

namespace TypeExpr

/-- The wrappers of a type around a heart, but for the mark for null at the outermost level. -/
def mirrorInner (heart : TypeExpr) : ResolvedType → TypeExpr
  | .named _ _ => heart
  | .list t => .array (if t.isNonNull then mirrorInner heart t else .nullable (mirrorInner heart t))
  | .nonNull t => mirrorInner heart t

/-- The wrappers of a type around a heart: a list is an array, and every level that is not marked as
non-null is nullable. -/
def mirror (heart : TypeExpr) (t : ResolvedType) : TypeExpr :=
  if t.isNonNull then mirrorInner heart t else .nullable (mirrorInner heart t)

end TypeExpr

namespace Options

theorem innerTypeExpr_eq_mirrorInner {o : Options} {naming : CompositeNaming} {t : ResolvedType}
    {e : TypeExpr} (h : o.innerTypeExpr naming t = .ok e) :
    e = TypeExpr.mirrorInner (o.namedExpr naming t.innermostKind t.innermostName) t := by
  induction t using innerTypeExpr.induct generalizing e with
  | case1 kind name =>
    rw [innerTypeExpr] at h
    exact (Except.ok.inj h).symm
  | case2 t ih =>
    rw [innerTypeExpr] at h
    obtain ⟨e', he', rfl⟩ := map_eq_ok_iff.1 h
    rw [ih he']
    rfl
  | case3 t ih =>
    rw [innerTypeExpr] at h
    obtain ⟨e', he', rfl⟩ := map_eq_ok_iff.1 h
    rw [ih he']
    rfl
  | case4 kind name =>
    rw [innerTypeExpr] at h
    exact (Except.ok.inj h).symm
  | case5 t =>
    rw [innerTypeExpr] at h
    cases h

/-- **The expression of a type mirrors it.** -/
theorem typeExpr_eq_mirror {o : Options} {naming : CompositeNaming} {t : ResolvedType}
    {e : TypeExpr} (h : o.typeExpr naming t = .ok e) :
    e = TypeExpr.mirror (o.namedExpr naming t.innermostKind t.innermostName) t := by
  cases t with
  | nonNull t =>
    rw [typeExpr] at h
    rw [innerTypeExpr_eq_mirrorInner h]
    rfl
  | named kind name =>
    rw [typeExpr] at h
    · obtain ⟨e', he', rfl⟩ := map_eq_ok_iff.1 h
      rw [innerTypeExpr_eq_mirrorInner he']
      rfl
    · nofun
  | list t =>
    rw [typeExpr] at h
    · obtain ⟨e', he', rfl⟩ := map_eq_ok_iff.1 h
      rw [innerTypeExpr_eq_mirrorInner he']
      rfl
    · nofun

/-- A composite type is called by its claimed name. -/
theorem namedExpr_claimed (o : Options) (claimed : String) {kind : TypeKind} (name : String)
    (h : kind.isComposite = true) : o.namedExpr (.claimed claimed) kind name = .named claimed := by
  cases kind <;> first | rfl | cases h

/-- What composite types are called says nothing about other types. -/
theorem namedExpr_of_not_composite (o : Options) (naming : CompositeNaming) {kind : TypeKind}
    (name : String) (h : kind.isComposite = false) :
    o.namedExpr naming kind name = o.namedExpr .own kind name := by
  cases kind <;> first | rfl | cases h

end Options
end ResponseTypes
