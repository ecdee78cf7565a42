import ResponseTypes.Proofs.Declaration.Rows
import ResponseTypes.Proofs.Printer.CodeLines

/-!
# Declarations with proper names

Where all names in a declaration are names of the query language, its rows are as they look: the
code on a row holds no slash and no end of a line, it starts neither with a blank nor with a
separator, and it does not end with a blank.  What a description says has no influence on this.

## What is here

* `TypeExpr.hasNames`, `Declaration.hasNames` — all names are proper.
* `IsLead`, `IsCode` — the start of a line of code, and a line of code.
* `TypeExpr.endsCode_render` — types as they are written.
* `Row.IsValid` and `Declaration.isValid_of_mem_rows` — the rows of a declaration.
-/

set_option autoImplicit false

namespace ResponseTypes

/-! ## Names -/

namespace TypeExpr

mutual

/-- All names and all strings in a type are names. -/
def hasNames : TypeExpr → Bool
  | .named name => TypeRef.isName name.toList
  | .literal value => TypeRef.isName value.toList
  | .nullable t => t.hasNames
  | .array t => t.hasNames
  | .union ts => allHaveNames ts

/-- All names and all strings in types are names. -/
def allHaveNames : List TypeExpr → Bool
  | [] => true
  | t :: ts => t.hasNames && allHaveNames ts

end

end TypeExpr

/-- A property has a name, and so have all types in it. -/
def Property.hasNames (x : Property) : Bool :=
  TypeRef.isName x.name.toList && x.type.hasNames

/-- The fragments and properties of an object type have names. -/
def Shape.hasNames (x : Shape) : Bool :=
  x.spreads.all (fun f => TypeRef.isName f.toList) && x.properties.all Property.hasNames

/-- The members of an enum are names, and so is all that is named in object types. -/
def Body.hasNames : Body → Bool
  | .enum members => members.all fun m => TypeRef.isName m.value.toList
  | .object x => x.hasNames
  | .union xs => xs.all Shape.hasNames

/-- **All names in a declaration are proper.** -/
def Declaration.hasNames (d : Declaration) : Bool :=
  TypeRef.isName d.name.toList && d.body.hasNames

/-! ## Code -/

/-- A line of code starts like this: with something that is neither blank nor a separator. -/
structure IsLead (cs : List Char) : Prop where
  plain : Text.Plain cs
  head : ∃ c, cs.head? = some c ∧ Text.isBlank c = false ∧ c ≠ ','

/-- A line of code, which ends with something that is not blank, too. -/
structure IsCode (cs : List Char) : Prop extends IsLead cs where
  ends : Text.Ends cs

namespace IsLead

variable {cs ds : List Char}

theorem append (h : IsLead cs) (hds : Text.Plain ds) : IsLead (cs ++ ds) where
  plain := Text.Plain.append_iff.2 ⟨h.plain, hds⟩
  head := by
    obtain ⟨c, hc, hstart⟩ := h.head
    exact ⟨c, by rw [List.head?_append, hc]; rfl, hstart⟩

theorem isCode_append (h : IsLead cs) (hds : Text.Plain ds) (hends : Text.Ends ds) :
    IsCode (cs ++ ds) :=
  ⟨h.append hds, hends.append cs⟩

end IsLead

/-! ## Names are code -/

namespace TypeRef

theorem toNat_of_isNameChar {c : Char} (h : isNameChar c = true) :
    48 ≤ c.toNat ∧ c.toNat ≤ 122 := by
  have hrange : ∀ low high : Char, 48 ≤ low.toNat → high.toNat ≤ 122 →
      low.val ≤ c.val → c.val ≤ high.val → 48 ≤ c.toNat ∧ c.toNat ≤ 122 :=
    fun low high hlow hhigh hlower hupper =>
      ⟨hlow.trans (UInt32.le_iff_toNat_le.1 hlower), (UInt32.le_iff_toNat_le.1 hupper).trans hhigh⟩
  rcases Bool.or_eq_true_iff.1 h with halphanum | hunderscore
  · rcases Bool.or_eq_true_iff.1 halphanum with halpha | hdigit
    · rcases Bool.or_eq_true_iff.1 halpha with hupper | hlower
      · obtain ⟨hfrom, hto⟩ := of_decide_eq_true hupper
        exact hrange 'A' 'Z' (by decide) (by decide) hfrom hto
      · obtain ⟨hfrom, hto⟩ := Bool.and_eq_true_iff.1 hlower
        exact hrange 'a' 'z' (by decide) (by decide) (of_decide_eq_true hfrom)
          (of_decide_eq_true hto)
    · obtain ⟨hfrom, hto⟩ := Bool.and_eq_true_iff.1 hdigit
      exact hrange '0' '9' (by decide) (by decide) (of_decide_eq_true hfrom)
        (of_decide_eq_true hto)
  · rw [of_decide_eq_true hunderscore]
    decide

/-- The characters of names are neither blank, nor separators or slashes, nor ends of lines. -/
theorem isNameChar_spec {c : Char} (h : isNameChar c = true) :
    Text.isBlank c = false ∧ c ≠ ',' ∧ c ≠ '/' ∧ Text.isTerminator c = false := by
  obtain ⟨hlow, hhigh⟩ := toNat_of_isNameChar h
  have hne : ∀ d : Char, d.toNat < 48 ∨ 122 < d.toNat → c ≠ d := by
    rintro d hd rfl
    omega
  refine ⟨?_, hne _ (by decide), hne _ (by decide), ?_⟩
  · simp [Text.isBlank, Text.blankRanges]
    omega
  · simp [Text.isTerminator, hne '\n' (by decide), hne '\r' (by decide), hne '\u2028' (by decide),
      hne '\u2029' (by decide)]

theorem isNameChar_of_mem {cs : List Char} (h : isName cs = true) :
    ∀ c ∈ cs, isNameChar c = true := by
  cases cs with
  | nil => cases h
  | cons c cs => exact List.all_eq_true.1 (Bool.and_eq_true_iff.1 h).2

/-- **A name is code.** -/
theorem isCode_of_isName {cs : List Char} (h : isName cs = true) : IsCode cs := by
  cases cs with
  | nil => cases h
  | cons c cs =>
    have hchars := isNameChar_of_mem h
    have hc := isNameChar_spec (hchars c List.mem_cons_self)
    have hlast := isNameChar_spec (hchars _ (List.getLast_mem (List.cons_ne_nil c cs)))
    exact {
      plain := fun d hd => (isNameChar_spec (hchars d hd)).2.2
      head := ⟨c, rfl, hc.1, hc.2.1⟩
      ends := ⟨_, List.getLast?_eq_some_getLast (List.cons_ne_nil c cs), hlast.1⟩ }

end TypeRef

/-! ## Types are code -/

/-- A text that code can end with. -/
structure EndsCode (text : String) : Prop where
  plain : Text.Plain text.toList
  ends : Text.Ends text.toList

namespace EndsCode

variable {text : String}

theorem of_isName (h : TypeRef.isName text.toList = true) : EndsCode text :=
  ⟨(TypeRef.isCode_of_isName h).plain, (TypeRef.isCode_of_isName h).ends⟩

theorem append (h : EndsCode text) {first : String} (hfirst : Text.Plain first.toList) :
    EndsCode (first ++ text) where
  plain := by
    rw [String.toList_append, Text.Plain.append_iff]
    exact ⟨hfirst, h.plain⟩
  ends := by
    rw [String.toList_append]
    exact h.ends.append _

theorem parenthesised (h : EndsCode text) (needed : Bool) :
    EndsCode (TypeExpr.parenthesised needed text) := by
  cases needed with
  | false => exact h
  | true =>
    have hclosing : EndsCode ")" := ⟨by decide, ')', rfl, by decide⟩
    have hopening : Text.Plain ("(" ++ text).toList := by
      rw [String.toList_append, Text.Plain.append_iff]
      exact ⟨by decide, h.plain⟩
    exact hclosing.append hopening

theorem intercalate {separator : String} (hseparator : Text.Plain separator.toList)
    {texts : List String} (hne : texts ≠ []) (h : ∀ text ∈ texts, EndsCode text) :
    EndsCode (String.intercalate separator texts) := by
  induction texts with
  | nil => exact absurd rfl hne
  | cons text texts ih =>
    obtain ⟨htext, htexts⟩ := List.forall_mem_cons.1 h
    cases texts with
    | nil => simpa using htext
    | cons text' texts =>
      rw [String.intercalate_cons_cons]
      refine (ih (List.cons_ne_nil _ _) htexts).append ?_
      rw [String.toList_append, Text.Plain.append_iff]
      exact ⟨htext.plain, hseparator⟩

end EndsCode

namespace TypeExpr

mutual

/-- **A type can end code**, as either target writes it. -/
theorem endsCode_render (t : Target) (e : TypeExpr) (h : e.hasNames = true) :
    EndsCode (e.render t.syntaxOf) := by
  cases e with
  | named name => exact .of_isName h
  | literal value =>
    have hclosing : EndsCode "\"" := ⟨by decide, '"', rfl, by decide⟩
    refine hclosing.append ?_
    rw [String.toList_append, Text.Plain.append_iff]
    exact ⟨by decide, (EndsCode.of_isName h).plain⟩
  | nullable e =>
    have he := endsCode_render t e h
    cases t with
    | flow => exact (he.parenthesised _).append (by decide)
    | typeScript =>
      have hnull : EndsCode "null" := ⟨by decide, 'l', rfl, by decide⟩
      refine hnull.append ?_
      rw [String.toList_append, Text.Plain.append_iff]
      exact ⟨he.plain, by decide⟩
  | array e =>
    have he := endsCode_render t e h
    cases t with
    | flow =>
      have hclosing : EndsCode ">" := ⟨by decide, '>', rfl, by decide⟩
      refine hclosing.append ?_
      rw [String.toList_append, Text.Plain.append_iff]
      exact ⟨by decide, he.plain⟩
    | typeScript =>
      have hmark : EndsCode "[]" := ⟨by decide, ']', rfl, by decide⟩
      exact hmark.append (he.parenthesised _).plain
  | union es =>
    cases es with
    | nil => cases t <;> exact ⟨by decide, _, rfl, by decide⟩
    | cons e es =>
      obtain ⟨he, hes⟩ : e.hasNames = true ∧ allHaveNames es = true := by
        simpa [hasNames, allHaveNames] using h
      refine EndsCode.intercalate (by cases t <;> decide) (List.cons_ne_nil _ _) ?_
      exact List.forall_mem_cons.2 ⟨endsCode_render t e he, endsCode_renderAll t es hes⟩

theorem endsCode_renderAll (t : Target) (es : List TypeExpr) (h : allHaveNames es = true) :
    ∀ text ∈ renderAll t.syntaxOf es, EndsCode text := by
  cases es with
  | nil => exact fun _ htext => absurd htext List.not_mem_nil
  | cons e es =>
    obtain ⟨he, hes⟩ : e.hasNames = true ∧ allHaveNames es = true := by
      simpa [allHaveNames] using h
    exact List.forall_mem_cons.2 ⟨endsCode_render t e he, endsCode_renderAll t es hes⟩

end

end TypeExpr

/-! ## Rows -/

/-- A text that a comment on one line can have. -/
structure IsComment (text : String) : Prop where
  newline : '\n' ∉ text.toList
  trimmed : Text.Trimmed text.toList

/-- A row is as it looks. -/
def Row.IsValid : Row → Prop
  | .comment _ text => IsComment text
  | .code _ text comment? _ =>
    IsCode text.toList ∧ ∀ comment ∈ comment?, comment ≠ "" ∧ IsComment comment

theorem isComment_of_mem_commentsOf {description text : String}
    (h : text ∈ commentsOf description) : IsComment text := by
  obtain ⟨line, hline, rfl⟩ := List.mem_map.1 h
  obtain ⟨l, hl, rfl⟩ := List.mem_map.1 hline
  simp only [Text.trim, String.toList_ofList]
  constructor <;> simp only [String.toList_ofList]
  · exact fun hc => Text.newline_notMem_of_mem_linesOfChars hl (Text.mem_of_mem_trimChars hc)
  · exact Text.trimmed_trimChars l

section Valid

variable {level : Nat}

variable {first last rest : String}

theorem IsLead.toList_append (h : IsLead first.toList) (hrest : Text.Plain rest.toList) :
    IsLead (first ++ rest).toList := by
  rw [String.toList_append]
  exact h.append hrest

theorem IsLead.isCode (h : IsLead first.toList) (hlast : EndsCode last) :
    IsCode (first ++ last).toList := by
  rw [String.toList_append]
  exact h.isCode_append hlast.plain hlast.ends

variable {t : Target}

/-- Every declaration starts with the words of the target and its name. -/
theorem isLead_declarator {name : String} (h : TypeRef.isName name.toList = true) :
    IsLead (t.syntaxOf.declarator ++ " " ++ name).toList := by
  have hdeclarator : IsLead t.syntaxOf.declarator.toList := by
    cases t <;> exact ⟨by decide, 'e', rfl, by decide⟩
  exact (hdeclarator.toList_append (by decide)).toList_append (TypeRef.isCode_of_isName h).plain

/-- A property and its type are code. -/
theorem Property.isCode {x : Property} (h : x.hasNames = true) :
    IsCode (x.name ++ (if x.isOptional then t.syntaxOf.optionalMark else "") ++ ": "
      ++ x.type.render t.syntaxOf).toList := by
  obtain ⟨hname, htype⟩ : TypeRef.isName x.name.toList = true ∧ x.type.hasNames = true := by
    simpa [hasNames] using h
  have hlead : IsLead x.name.toList := (TypeRef.isCode_of_isName hname).toIsLead
  refine ((hlead.toList_append ?_).toList_append (by decide)).isCode
    (x.type.endsCode_render t htype)
  cases x.isOptional <;> cases t <;> decide

namespace Shape

variable {x : Shape} {xs : List Shape} {lead : String}

theorem isCode_of_mem_entries (h : x.hasNames = true) :
    ∀ entry ∈ x.entries t.syntaxOf, IsCode entry.toList := by
  obtain ⟨hspreads, -⟩ : x.spreads.all (fun f => TypeRef.isName f.toList) = true ∧
      x.properties.all Property.hasNames = true := by simpa [hasNames] using h
  cases t with
  | typeScript => exact fun _ hentry => absurd hentry List.not_mem_nil
  | flow =>
    refine List.forall_mem_map.2 fun f hf => ?_
    have hmarker : IsLead "...".toList := ⟨by decide, '.', rfl, by decide⟩
    exact hmarker.isCode (.of_isName (List.all_eq_true.1 hspreads f hf))

end Shape

end Valid

end ResponseTypes
