import ResponseTypes.Proofs.Declaration.Names
import ResponseTypes.Proofs.TypeExpr.Expressing

/-!
# Types are read off their texts

Two types that are written alike are the same type.  Flow shows at the start of a text what a type
is at its outermost level, and TypeScript shows it at the end; only a name shows nothing, but then
it has none of the characters that types are put together with.  Once the outermost level is known,
what is left of the text is that of the type inside, perhaps in parentheses; and since no type is
written with a parenthesis at the telling end unless it is for grouping, the parentheses can be
taken off.

## What is here

* `TypeExpr.IsPlain`, `TypeExpr.Wraps` and `TypeExpr.Arises` — the types that come up.
* `TypeExpr.toList_render_literals` — strings as they are written; `TypeExpr.literals_injective`.
* `TypeExpr.sign`, `TypeExpr.shown` and `TypeExpr.shown_render` — the telling end of a text.
* `TypeExpr.eq_of_parenthesised_eq` — parentheses can be taken off.
* `TypeExpr.render_eq_of_array`, `TypeExpr.render_eq_of_nullable` — what is inside is read off too.
* `TypeExpr.eq_of_render_eq` — types that are written alike.
* `TypeExpr.render_unambiguous` — and where there are parentheses.
-/

set_option autoImplicit false

namespace ResponseTypes
namespace TypeExpr

/-! ## The types that come up -/

/-- The characters that types are put together with, besides those of names. -/
def reserved : List Char :=
  ['"', '(', ')', '<', '>', '[', ']', '?', '|', ' ']

/-- The characters of a name have no use between names.  So it is for the identifiers of both
targets. -/
def IsPlain (name : String) : Prop :=
  ∀ c ∈ name.toList, c ∉ reserved

/-- The names of types and scalars are plain. -/
theorem IsPlain.of_isName {name : String} (h : TypeRef.isName name.toList = true) :
    IsPlain name := by
  intro c hc hreserved
  have hnone : reserved.all (fun d => !TypeRef.isNameChar d) = true := by decide
  have hnot := List.all_eq_true.1 hnone c hreserved
  rw [TypeRef.isNameChar_of_mem h c hc] at hnot
  cases hnot

/-- An expression is a chain of arrays and marks for null around a base; marks for null do not stand
on each other. -/
inductive Wraps (base : TypeExpr) : TypeExpr → Prop where
  | base : Wraps base base
  | array {e : TypeExpr} (h : Wraps base e) : Wraps base (.array e)
  | nullable {e : TypeExpr} (h : Wraps base e) (hplain : e.isNullable = false) :
    Wraps base (.nullable e)

/-- **The types that come up**: the expression of a type, with a plain name at its heart, and some
strings, of which there is at least one, perhaps in a chain of wrappers. -/
inductive Arises : TypeExpr → Prop where
  | expressed {o : Options} {naming : CompositeNaming} {t : ResolvedType} {e : TypeExpr}
    {called : String} (h : o.typeExpr naming t = .ok e) (hheart : e.heart = .named called)
    (hcalled : IsPlain called) : Arises e
  | narrowed {values : List String} {e : TypeExpr} (hne : values ≠ [])
    (hvalues : ∀ v ∈ values, TypeRef.isName v.toList = true) (h : Wraps (literals values) e) :
    Arises e

/-- What is at the heart of the types that come up. -/
inductive IsBase : TypeExpr → Prop where
  | named {name : String} (h : IsPlain name) : IsBase (.named name)
  | literals {v : String} {vs : List String}
    (h : ∀ w ∈ v :: vs, TypeRef.isName w.toList = true) : IsBase (literals (v :: vs))

theorem wraps_heart {e : TypeExpr} (h : e.WellMarked) : Wraps e.heart e := by
  induction e using heart.induct with
  | case1 e ih => exact .array (ih h)
  | case2 e ih => exact .nullable (ih h.2) h.1
  | case3 e harray hnullable =>
    rw [heart]
    · exact .base
    · exact harray
    · exact hnullable

theorem Arises.exists_base {e : TypeExpr} (h : Arises e) : ∃ base, IsBase base ∧ Wraps base e := by
  cases h with
  | expressed h hheart hcalled =>
    obtain ⟨_, -, hexpresses⟩ := Options.expresses_of_typeExpr h
    exact ⟨_, .named hcalled, hheart ▸ wraps_heart hexpresses.wellMarked⟩
  | @narrowed values e hne hvalues h =>
    cases values with
    | nil => exact absurd rfl hne
    | cons v vs => exact ⟨_, .literals hvalues, h⟩

/-! ## Strings -/

/-- A string behind others, as it is written. -/
def laterLiteral (v : String) : List Char :=
  ' ' :: '|' :: ' ' :: '"' :: (v.toList ++ ['"'])

theorem renderAll_map_literal (s : Syntax) (vs : List String) :
    renderAll s (vs.map .literal) = vs.map fun v => "\"" ++ v ++ "\"" := by
  induction vs with
  | nil => rfl
  | cons v vs ih => rw [List.map_cons, renderAll, ih, render, List.map_cons]

/-- **Strings as they are written**, by both targets. -/
theorem toList_render_literals (t : Target) (v : String) (vs : List String) :
    ((literals (v :: vs)).render t.syntaxOf).toList
      = '"' :: (v.toList ++ '"' :: vs.flatMap laterLiteral) := by
  have hseparator : t.syntaxOf.unionSeparator = " | " := by cases t <;> rfl
  have hjoined : ∀ (v : String) (vs : List String),
      (String.intercalate " | " ((v :: vs).map fun v => "\"" ++ v ++ "\"")).toList
        = '"' :: (v.toList ++ '"' :: vs.flatMap laterLiteral) := by
    intro v vs
    induction vs generalizing v with
    | nil => simp
    | cons w vs ih =>
      have hrest := ih w
      rw [List.map_cons] at hrest
      rw [List.map_cons, List.map_cons, String.intercalate_cons_cons, String.toList_append, hrest]
      simp [laterLiteral]
  cases vs with
  | nil => simp [literals, render]
  | cons w vs =>
    rw [literals, ← hjoined v (w :: vs)]
    · rw [List.map_cons, render, renderAll_map_literal, hseparator, render]
      rfl
    · intro u hu
      cases hu

/-- A quotation mark ends a string. -/
theorem eq_of_quoted_eq {v w : String} {cs ds : List Char}
    (hv : TypeRef.isName v.toList = true) (hw : TypeRef.isName w.toList = true)
    (h : v.toList ++ '"' :: cs = w.toList ++ '"' :: ds) : v = w ∧ cs = ds := by
  have hquote : ∀ {u : String}, TypeRef.isName u.toList = true →
      ∀ {es : List Char}, (u.toList ++ '"' :: es).takeWhile (· ≠ '"') = u.toList := by
    intro u hu es
    rw [List.takeWhile_append_of_pos, List.takeWhile_cons_of_neg (by decide), List.append_nil]
    intro c hc
    have hchar := TypeRef.isNameChar_of_mem hu c hc
    simp only [ne_eq, decide_eq_true_eq]
    rintro rfl
    exact absurd hchar (by decide)
  have hsame : v.toList = w.toList := by rw [← hquote hv, h, hquote hw]
  rw [hsame] at h
  exact ⟨String.toList_inj.1 hsame, (List.cons.inj (List.append_cancel_left h)).2⟩

theorem laterLiterals_injective {vs ws : List String}
    (hvs : ∀ v ∈ vs, TypeRef.isName v.toList = true)
    (hws : ∀ w ∈ ws, TypeRef.isName w.toList = true)
    (h : vs.flatMap laterLiteral = ws.flatMap laterLiteral) : vs = ws := by
  induction vs generalizing ws with
  | nil =>
    cases ws with
    | nil => rfl
    | cons w ws => simp [laterLiteral] at h
  | cons v vs ih =>
    cases ws with
    | nil => simp [laterLiteral] at h
    | cons w ws =>
      obtain ⟨hv, hvs⟩ := List.forall_mem_cons.1 hvs
      obtain ⟨hw, hws⟩ := List.forall_mem_cons.1 hws
      obtain ⟨hsame, hrest⟩ : v = w ∧ vs.flatMap laterLiteral = ws.flatMap laterLiteral :=
        eq_of_quoted_eq hv hw (by simpa [laterLiteral] using h)
      rw [hsame, ih hvs hws hrest]

/-- **Strings that are written alike** are the same ones. -/
theorem literals_injective (t : Target) {v w : String} {vs ws : List String}
    (hvs : ∀ u ∈ v :: vs, TypeRef.isName u.toList = true)
    (hws : ∀ u ∈ w :: ws, TypeRef.isName u.toList = true)
    (h : (literals (v :: vs)).render t.syntaxOf = (literals (w :: ws)).render t.syntaxOf) :
    literals (v :: vs) = literals (w :: ws) := by
  obtain ⟨hv, hvs⟩ := List.forall_mem_cons.1 hvs
  obtain ⟨hw, hws⟩ := List.forall_mem_cons.1 hws
  have htext := congrArg String.toList h
  rw [toList_render_literals, toList_render_literals] at htext
  obtain ⟨hsame, hrest⟩ := eq_of_quoted_eq hv hw (List.cons.inj htext).2
  rw [hsame, laterLiterals_injective hvs hws hrest]

/-! ## Wrappers -/

theorem toList_render_array_flow (e : TypeExpr) :
    ((array e).render Target.flow.syntaxOf).toList
      = 'A' :: 'r' :: 'r' :: 'a' :: 'y' :: '<' :: ((e.render Target.flow.syntaxOf).toList ++ ['>'])
    := by
  simp [render, Target.syntaxOf, Syntax.flow]

theorem toList_render_array_typeScript (e : TypeExpr) :
    ((array e).render Target.typeScript.syntaxOf).toList
      = (parenthesised (e.isUnionIn Target.typeScript.syntaxOf)
          (e.render Target.typeScript.syntaxOf)).toList ++ ['[', ']'] := by
  simp [render, Target.syntaxOf, Syntax.typeScript]

theorem toList_render_nullable_flow (e : TypeExpr) :
    ((nullable e).render Target.flow.syntaxOf).toList
      = '?' :: (parenthesised (e.isUnionIn Target.flow.syntaxOf)
          (e.render Target.flow.syntaxOf)).toList := by
  simp [render, Target.syntaxOf, Syntax.flow]

theorem toList_render_nullable_typeScript (e : TypeExpr) :
    ((nullable e).render Target.typeScript.syntaxOf).toList
      = (e.render Target.typeScript.syntaxOf).toList ++ [' ', '|', ' ', 'n', 'u', 'l', 'l'] := by
  simp [render, Target.syntaxOf, Syntax.typeScript]

/-! ## The telling end of a text -/

/-- What an expression is at its outermost level. -/
inductive Form where
  | named
  | literals
  | array
  | nullable
deriving DecidableEq

/-- The outermost level of an expression. -/
def form : TypeExpr → Form
  | .named _ => .named
  | .literal _ => .literals
  | .union _ => .literals
  | .array _ => .array
  | .nullable _ => .nullable

/-- The character that stands for a form at the telling end of a text. -/
def Form.sign? : Target → Form → Option Char
  | _, .named => none
  | _, .literals => some '"'
  | .flow, .array => some 'A'
  | .flow, .nullable => some '?'
  | .typeScript, .array => some ']'
  | .typeScript, .nullable => some 'l'

theorem Form.sign?_injective (t : Target) : Function.Injective (Form.sign? t) := by
  intro a b h
  cases t <;> cases a <;> cases b <;> first | rfl | cases h

/-- The character at the telling end of a text, which is the start in Flow, and the end in
TypeScript. -/
def sign : Target → List Char → Option Char
  | .flow, cs => cs.head?
  | .typeScript, cs => cs.getLast?

/-- What a text shows at its telling end, if it has any of the reserved characters. -/
def shown (t : Target) (cs : List Char) : Option Char :=
  if cs.any reserved.contains then sign t cs else none

theorem mem_of_sign {t : Target} {cs : List Char} {c : Char} (h : sign t cs = some c) : c ∈ cs := by
  cases t with
  | flow => exact List.mem_of_head? h
  | typeScript => exact List.mem_of_getLast? h

theorem shown_eq {t : Target} {cs : List Char} {c : Char} (d : Char) (hmem : d ∈ cs)
    (hd : d ∈ reserved) (h : sign t cs = some c) : shown t cs = some c := by
  rw [shown, if_pos (List.any_eq_true.2 ⟨d, hmem, List.contains_iff_mem.2 hd⟩), h]

theorem shown_literals (t : Target) (v : String) (vs : List String) :
    shown t ((literals (v :: vs)).render t.syntaxOf).toList = some '"' := by
  rw [toList_render_literals]
  refine shown_eq '"' List.mem_cons_self (by decide) ?_
  cases t with
  | flow => rfl
  | typeScript =>
    have hlast : ∃ front, '"' :: (v.toList ++ '"' :: vs.flatMap laterLiteral) = front ++ ['"'] := by
      rcases List.eq_nil_or_concat vs with rfl | ⟨ws, w, rfl⟩
      · exact ⟨'"' :: v.toList, by simp⟩
      · exact ⟨'"' :: (v.toList ++ '"' :: (ws.flatMap laterLiteral ++
          ' ' :: '|' :: ' ' :: '"' :: w.toList)), by simp [laterLiteral]⟩
    obtain ⟨front, hfront⟩ := hlast
    rw [hfront]
    exact List.getLast?_concat

/-- **What a text shows** is the outermost level of the type. -/
theorem shown_render (t : Target) {base e : TypeExpr} (hbase : IsBase base) (h : Wraps base e) :
    shown t (e.render t.syntaxOf).toList = e.form.sign? t := by
  cases h with
  | base =>
    cases hbase with
    | named hname =>
      refine if_neg fun hany => ?_
      obtain ⟨c, hc, hreserved⟩ := List.any_eq_true.1 hany
      exact hname c hc (List.contains_iff_mem.1 hreserved)
    | @literals v vs _ =>
      rw [shown_literals]
      cases vs <;> rfl
  | array _ =>
    cases t with
    | flow =>
      rw [toList_render_array_flow]
      exact shown_eq '<' (by simp) (by decide) rfl
    | typeScript =>
      rw [toList_render_array_typeScript]
      exact shown_eq ']' (by simp) (by decide) (by simp [sign])
  | nullable _ _ =>
    cases t with
    | flow =>
      rw [toList_render_nullable_flow]
      exact shown_eq '?' List.mem_cons_self (by decide) rfl
    | typeScript =>
      rw [toList_render_nullable_typeScript]
      exact shown_eq ' ' (by simp) (by decide) (by simp [sign])

/-! ## Parentheses -/

/-- The parenthesis that stands at the telling end of a text in parentheses. -/
def parenthesis : Target → Char
  | .flow => '('
  | .typeScript => ')'

/-- No type is written with a parenthesis at the telling end. -/
theorem sign_render_ne (t : Target) {base e : TypeExpr} (hbase : IsBase base) (h : Wraps base e) :
    sign t (e.render t.syntaxOf).toList ≠ some (parenthesis t) := by
  intro hsign
  have hshown := shown_render t hbase h
  rw [shown_eq (parenthesis t) (mem_of_sign hsign) (by cases t <;> decide) hsign] at hshown
  revert hshown
  cases t <;> cases e.form <;> decide

theorem sign_parenthesised (t : Target) (text : String) :
    sign t (parenthesised true text).toList = some (parenthesis t) := by
  cases t with
  | flow => simp [parenthesised, sign, parenthesis]
  | typeScript =>
    rw [parenthesised, if_pos rfl, String.toList_append]
    exact List.getLast?_concat

/-- **Parentheses can be taken off** again. -/
theorem eq_of_parenthesised_eq (t : Target) {needed needed' : Bool} {x y : String}
    (hx : sign t x.toList ≠ some (parenthesis t)) (hy : sign t y.toList ≠ some (parenthesis t))
    (h : (parenthesised needed x).toList = (parenthesised needed' y).toList) : x = y := by
  cases needed with
  | false =>
    cases needed' with
    | false => exact String.toList_inj.1 h
    | true => exact absurd (h ▸ sign_parenthesised t y) hx
  | true =>
    cases needed' with
    | false => exact absurd (h ▸ sign_parenthesised t x) hy
    | true => exact String.toList_inj.1 (by simpa [parenthesised] using h)

/-! ## Types that are written alike -/

theorem form_eq_of_render_eq (t : Target) {base base' e e' : TypeExpr} (hbase : IsBase base)
    (hbase' : IsBase base') (h : Wraps base e) (h' : Wraps base' e')
    (heq : e.render t.syntaxOf = e'.render t.syntaxOf) : e.form = e'.form := by
  refine Form.sign?_injective t ?_
  rw [← shown_render t hbase h, ← shown_render t hbase' h', heq]

theorem IsBase.form_eq {base : TypeExpr} (h : IsBase base) :
    base.form = .named ∨ base.form = .literals := by
  cases h with
  | named _ => exact .inl rfl
  | @literals v vs _ => cases vs <;> exact .inr rfl

theorem eq_of_render_eq_of_isBase (t : Target) {base base' : TypeExpr} (hbase : IsBase base)
    (hbase' : IsBase base') (heq : base.render t.syntaxOf = base'.render t.syntaxOf) :
    base = base' := by
  have hform := form_eq_of_render_eq t hbase hbase' .base .base heq
  cases hbase with
  | named _ =>
    cases hbase' with
    | named _ => exact congrArg TypeExpr.named heq
    | @literals w ws _ => cases ws <;> cases hform
  | @literals v vs hvs =>
    cases hbase' with
    | named _ => cases vs <;> cases hform
    | literals hws => exact literals_injective t hvs hws heq

/-- The element of an array is read off its text. -/
theorem render_eq_of_array (t : Target) {base base' e e' : TypeExpr} (hbase : IsBase base)
    (hbase' : IsBase base') (h : Wraps base e) (h' : Wraps base' e')
    (heq : (array e).render t.syntaxOf = (array e').render t.syntaxOf) :
    e.render t.syntaxOf = e'.render t.syntaxOf := by
  have htext := congrArg String.toList heq
  cases t with
  | flow =>
    rw [toList_render_array_flow, toList_render_array_flow] at htext
    exact String.toList_inj.1 (by simpa using htext)
  | typeScript =>
    rw [toList_render_array_typeScript, toList_render_array_typeScript] at htext
    exact eq_of_parenthesised_eq _ (sign_render_ne _ hbase h) (sign_render_ne _ hbase' h')
      (List.append_cancel_right htext)

/-- What a mark for null stands on is read off the text. -/
theorem render_eq_of_nullable (t : Target) {base base' e e' : TypeExpr} (hbase : IsBase base)
    (hbase' : IsBase base') (h : Wraps base e) (h' : Wraps base' e')
    (heq : (nullable e).render t.syntaxOf = (nullable e').render t.syntaxOf) :
    e.render t.syntaxOf = e'.render t.syntaxOf := by
  have htext := congrArg String.toList heq
  cases t with
  | flow =>
    rw [toList_render_nullable_flow, toList_render_nullable_flow] at htext
    exact eq_of_parenthesised_eq _ (sign_render_ne _ hbase h) (sign_render_ne _ hbase' h')
      (List.cons.inj htext).2
  | typeScript =>
    rw [toList_render_nullable_typeScript, toList_render_nullable_typeScript] at htext
    exact String.toList_inj.1 (List.append_cancel_right htext)

/-- **Types that are written alike** by a target are the same. -/
theorem eq_of_render_eq (t : Target) {base base' e e' : TypeExpr} (hbase : IsBase base)
    (hbase' : IsBase base') (h : Wraps base e) (h' : Wraps base' e')
    (heq : e.render t.syntaxOf = e'.render t.syntaxOf) : e = e' := by
  -- The texts tell that both types are built in the same way; then so do those of their parts.
  have hform := form_eq_of_render_eq t hbase hbase' h h' heq
  induction h generalizing e' with
  | base =>
    cases h' with
    | base => exact eq_of_render_eq_of_isBase t hbase hbase' heq
    | array _ | nullable _ _ => rcases hbase.form_eq with h | h <;> cases h.symm.trans hform
  | array h ih =>
    cases h' with
    | base => rcases hbase'.form_eq with h | h <;> cases h.symm.trans hform.symm
    | nullable _ _ => cases hform
    | array h' =>
      have hinner := render_eq_of_array t hbase hbase' h h' heq
      rw [ih h' hinner (form_eq_of_render_eq t hbase hbase' h h' hinner)]
  | nullable h _ ih =>
    cases h' with
    | base => rcases hbase'.form_eq with h | h <;> cases h.symm.trans hform.symm
    | array _ => cases hform
    | nullable h' _ =>
      have hinner := render_eq_of_nullable t hbase hbase' h h' heq
      rw [ih h' hinner (form_eq_of_render_eq t hbase hbase' h h' hinner)]

/-! ## Unions -/

/-- A target writes a type as a union: two or more strings, or any type with `null`. -/
inductive IsUnion : Target → TypeExpr → Prop where
  | literals {t : Target} {values : List String} (h : 2 ≤ values.length) :
    IsUnion t (literals values)
  | nullable {e : TypeExpr} : IsUnion .typeScript (.nullable e)

theorem IsUnion.isUnionIn {t : Target} {e : TypeExpr} (h : IsUnion t e) :
    e.isUnionIn t.syntaxOf = true := by
  cases h with
  | @literals _ values h =>
    match values with
    | [] => cases h
    | [v] => exact absurd h (by simp)
    | v :: w :: vs => simp [TypeExpr.literals, TypeExpr.isUnionIn]
  | nullable => rfl

/-- **Types can be read off their texts.**  Two types that come up and are written alike by a target
are the same; so the lists, the levels that are nullable and the strings are all there in the text.
In particular a union is in parentheses wherever a marker stands behind it, for an array, or before
it, for a type that is nullable. -/
theorem render_unambiguous :
    (∀ (t : Target) (e e' : TypeExpr), Arises e → Arises e' →
      e.render t.syntaxOf = e'.render t.syntaxOf → e = e') ∧
    ∀ (t : Target) (e : TypeExpr), IsUnion t e →
      (∀ marker, t.syntaxOf.array = .marked marker →
        (array e).render t.syntaxOf = "(" ++ e.render t.syntaxOf ++ ")" ++ marker) ∧
      ∀ marker, t.syntaxOf.nullable = .marked marker →
        (nullable e).render t.syntaxOf = marker ++ ("(" ++ e.render t.syntaxOf ++ ")") := by
  refine ⟨fun t e e' h h' heq => ?_, fun t e h => ⟨fun marker harray => ?_,
    fun marker hnullable => ?_⟩⟩
  · obtain ⟨base, hbase, hwraps⟩ := h.exists_base
    obtain ⟨base', hbase', hwraps'⟩ := h'.exists_base
    exact eq_of_render_eq t hbase hbase' hwraps hwraps' heq
  · rw [render, harray, parenthesised, if_pos h.isUnionIn]
  · rw [render, hnullable, parenthesised, if_pos h.isUnionIn]

/-- What is written as a list of episodes is one, and unions are grouped where a marker follows. -/
theorem render_unambiguous_episodes :
    (∃ e, ({} : Options).typeExpr .own (.list (.nonNull (.named .enum "Episode"))) = .ok e ∧
      e.render Target.flow.syntaxOf = "?Array<Episode>" ∧
      e = .nullable (.array (.named "Episode"))) ∧
    (array (literals ["Human", "Droid"])).render Target.typeScript.syntaxOf
      = "(\"Human\" | \"Droid\")[]" := by
  have hexpr : ({} : Options).typeExpr .own (.list (.nonNull (.named .enum "Episode")))
      = .ok (.nullable (.array (.named "Episode"))) := rfl
  have harises : Arises (.nullable (.array (.named "Episode"))) :=
    .expressed hexpr rfl (.of_isName (by decide))
  refine ⟨⟨.nullable (.array (.named "Episode")), hexpr, by decide, ?_⟩, ?_⟩
  · exact render_unambiguous.1 .flow _ _ harises harises rfl
  · rw [(render_unambiguous.2 .typeScript _ (.literals (by decide))).1 "[]" rfl]
    decide

/-- **A union may stand in an array without parentheses**, where the array encloses it. -/
theorem exists_union_without_parentheses :
    Arises (array (literals ["Human", "Droid"])) ∧ IsUnion .flow (literals ["Human", "Droid"]) ∧
      (array (literals ["Human", "Droid"])).render Target.flow.syntaxOf
        = "Array<\"Human\" | \"Droid\">" ∧
      '(' ∉ ((array (literals ["Human", "Droid"])).render Target.flow.syntaxOf).toList :=
  ⟨.narrowed (List.cons_ne_nil _ _) (by decide) (.array .base), .literals (by decide), by decide,
    by decide⟩

end TypeExpr
end ResponseTypes
