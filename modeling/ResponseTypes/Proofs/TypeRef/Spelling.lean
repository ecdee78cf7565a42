import ResponseTypes.Proofs.Declaration.Names
import ResponseTypes.Proofs.Schema.Resolving

/-!
# How type references are spelled

A type reference is read from the outside inwards: the blanks around it are dropped, then its mark,
then its brackets.  The grammar of references says the same from the inside outwards.  Blanks are
free around a reference, and so around the element of a list, but none stands before a mark.

## What is here

* `TypeRef.SpellsName`, `TypeRef.Encloses` and `TypeRef.Derives` — the grammar.
* `TypeRef.parseChars_of_name`, `TypeRef.parseChars_of_list` — reading follows the grammar;
  `TypeRef.cases_of_parseChars` — and nothing else is read.
* `TypeRef.spec_of_parseChars`, `TypeRef.exists_of_derives`, `TypeRef.parseChars_display_mark` —
  what is read, that all of the grammar is, and that what has been written is read back.
* `TypeRef.parse_spec` — reading accepts exactly the grammar, and inverts writing.
-/

set_option autoImplicit false

namespace ResponseTypes
namespace TypeRef

/-! ## The grammar -/

/-- A name starts with a letter or an underscore. -/
def StartsName (c : Char) : Prop :=
  ('A' ≤ c ∧ c ≤ 'Z') ∨ ('a' ≤ c ∧ c ≤ 'z') ∨ c = '_'

/-- A name goes on with letters, underscores and digits. -/
def ContinuesName (c : Char) : Prop :=
  StartsName c ∨ ('0' ≤ c ∧ c ≤ '9')

/-- `Name = [A-Za-z_][A-Za-z0-9_]*`. -/
inductive SpellsName : List Char → Prop where
  | intro {c : Char} {cs : List Char} (hstart : StartsName c) (hrest : ∀ d ∈ cs, ContinuesName d) :
    SpellsName (c :: cs)

/-- A mark that may be left out. -/
def optionalMark (isMarked : Bool) : List Char :=
  if isMarked then ['!'] else []

/-- A text encloses a body: `ws* body '!'? ws*`. -/
def Encloses (text body : List Char) (isMarked : Bool) : Prop :=
  ∃ before after, (∀ c ∈ before, Text.isBlank c = true) ∧ (∀ c ∈ after, Text.isBlank c = true) ∧
    text = before ++ (body ++ optionalMark isMarked) ++ after

/-- **The grammar of type references**: `T ::= ws* (Name | '[' T ']') '!'? ws*`. -/
inductive Derives : List Char → Prop where
  | name {text name : List Char} {isMarked : Bool} (hname : SpellsName name)
    (htext : Encloses text name isMarked) : Derives text
  | list {text element : List Char} {isMarked : Bool} (helement : Derives element)
    (htext : Encloses text ('[' :: (element ++ [']'])) isMarked) : Derives text

/-! ## Names -/

theorem isUpper_iff {c : Char} : c.isUpper = true ↔ 'A' ≤ c ∧ c ≤ 'Z' :=
  decide_eq_true_iff

theorem isLower_iff {c : Char} : c.isLower = true ↔ 'a' ≤ c ∧ c ≤ 'z' := by
  change (decide _ && decide _) = true ↔ _
  rw [Bool.and_eq_true, decide_eq_true_eq, decide_eq_true_eq]
  rfl

theorem isDigit_iff {c : Char} : c.isDigit = true ↔ '0' ≤ c ∧ c ≤ '9' := by
  change (decide _ && decide _) = true ↔ _
  rw [Bool.and_eq_true, decide_eq_true_eq, decide_eq_true_eq]
  rfl

theorem isNameChar_iff {c : Char} : isNameChar c = true ↔ ContinuesName c := by
  change (((c.isUpper || c.isLower) || c.isDigit) || decide (c = '_')) = true ↔ _
  rw [Bool.or_eq_true, Bool.or_eq_true, Bool.or_eq_true, isUpper_iff, isLower_iff, isDigit_iff,
    decide_eq_true_eq, ContinuesName, StartsName]
  tauto

/-- What starts a name goes on with it, but for the digits. -/
theorem startsName_iff {c : Char} : StartsName c ↔ ContinuesName c ∧ c.isDigit = false := by
  have hdisjoint : StartsName c → c.isDigit = false := by
    rw [← Bool.not_eq_true, isDigit_iff, StartsName, Char.le_def, Char.le_def]
    rintro (⟨h, -⟩ | ⟨h, -⟩ | rfl) ⟨-, h'⟩
    · exact absurd (Char.le_trans h h') (by decide)
    · exact absurd (Char.le_trans h h') (by decide)
    · exact absurd h' (by decide)
  rw [ContinuesName, ← isDigit_iff]
  constructor
  · exact fun h => ⟨.inl h, hdisjoint h⟩
  · rintro ⟨h | h, hfalse⟩
    · exact h
    · rw [h] at hfalse
      cases hfalse

/-- **The names of the grammar** are those that are accepted. -/
theorem isName_iff {cs : List Char} : isName cs = true ↔ SpellsName cs := by
  cases cs with
  | nil => exact iff_of_false Bool.false_ne_true nofun
  | cons c cs =>
    have hrest : cs.all isNameChar = true ↔ ∀ d ∈ cs, ContinuesName d := by
      rw [List.all_eq_true]
      exact forall₂_congr fun _ _ => isNameChar_iff
    rw [isName, List.all_cons, Bool.and_eq_true, Bool.and_eq_true, Bool.not_eq_true', hrest,
      isNameChar_iff]
    constructor
    · rintro ⟨hdigit, hc, hcs⟩
      exact .intro (startsName_iff.2 ⟨hc, hdigit⟩) hcs
    · rintro ⟨hstart, hcs⟩
      obtain ⟨hc, hdigit⟩ := startsName_iff.1 hstart
      exact ⟨hdigit, hc, hcs⟩

/-! ## Bodies -/

/-- What a body of a reference is like: it is not empty, there are no blanks around it, and it does
not end with a mark. -/
structure IsBody (body : List Char) : Prop where
  ne_nil : body ≠ []
  trimmed : Text.Trimmed body
  unmarked : body.getLast? ≠ some '!'

theorem isBody_of_spellsName {cs : List Char} (h : SpellsName cs) : IsBody cs := by
  have hname := isName_iff.2 h
  have hchars := isNameChar_of_mem hname
  have hne : cs ≠ [] := by
    rintro rfl
    cases h
  refine ⟨hne, ⟨fun c hc => ?_, fun c hc => ?_⟩, fun hlast => ?_⟩
  · exact (isNameChar_spec (hchars c (List.mem_of_head? hc))).1
  · exact (isNameChar_spec (hchars c (List.mem_of_getLast? hc))).1
  · exact absurd (hchars '!' (List.mem_of_getLast? hlast)) (by decide)

theorem isBody_brackets (element : List Char) : IsBody ('[' :: (element ++ [']'])) := by
  have hlast : ('[' :: (element ++ [']'])).getLast? = some ']' := by
    rw [← List.cons_append, List.getLast?_concat]
  refine ⟨List.cons_ne_nil _ _, ⟨fun c hc => ?_, fun c hc => ?_⟩, ?_⟩
  · cases hc
    decide
  · rw [hlast] at hc
    cases hc
    decide
  · rw [hlast]
    decide

theorem IsBody.trimmed_append {body : List Char} (h : IsBody body) (isMarked : Bool) :
    Text.Trimmed (body ++ optionalMark isMarked) := by
  cases isMarked with
  | false => simpa [optionalMark] using h.trimmed
  | true =>
    refine ⟨fun c hc => h.trimmed.head c ?_, fun c hc => ?_⟩
    · rwa [List.head?_append_of_ne_nil _ h.ne_nil] at hc
    · rw [optionalMark, if_pos rfl, List.getLast?_concat] at hc
      cases hc
      decide

theorem IsBody.splitMark_append {body : List Char} (h : IsBody body) (isMarked : Bool) :
    splitMark (body ++ optionalMark isMarked) = (body, isMarked) := by
  cases isMarked with
  | false => simp [splitMark, optionalMark, h.unmarked]
  | true => simp [splitMark, optionalMark]

/-- **A text is taken apart** into the body that it encloses and a mark. -/
theorem Encloses.splitMark_trimChars {text body : List Char} {isMarked : Bool}
    (h : Encloses text body isMarked) (hbody : IsBody body) :
    splitMark (Text.trimChars text) = (body, isMarked) := by
  obtain ⟨before, after, hbefore, hafter, rfl⟩ := h
  rw [Text.trimChars_append hafter, Text.trimChars, Text.dropBlanks_append hbefore,
    ← Text.trimChars, (hbody.trimmed_append isMarked).trimChars_eq, hbody.splitMark_append]

/-- Every text encloses what it is taken apart into. -/
theorem encloses_splitMark (text : List Char) :
    Encloses text (splitMark (Text.trimChars text)).1 (splitMark (Text.trimChars text)).2 := by
  have hmark : ∀ cs, (splitMark cs).1 ++ optionalMark (splitMark cs).2 = cs := by
    intro cs
    rw [splitMark]
    split
    · rename_i hlast
      obtain ⟨body, rfl⟩ := List.getLast?_eq_some_iff.1 hlast
      rw [List.dropLast_concat]
      rfl
    · exact List.append_nil cs
  obtain ⟨before, after, hbefore, hafter, htext⟩ := Text.exists_eq_append_trimChars text
  exact ⟨before, after, hbefore, hafter, by rw [hmark]; exact htext⟩

/-! ## Reading -/

theorem parseChars_of_name {text name : List Char} {isMarked : Bool}
    (h : Encloses text name isMarked) (hname : SpellsName name) :
    parseChars text = .ok (mark isMarked (.named (String.ofList name))) := by
  have hsplit := h.splitMark_trimChars (isBody_of_spellsName hname)
  have hisName := isName_iff.2 hname
  rw [parseChars, hsplit]
  split
  · rename_i rest hrest
    obtain rfl : name = '[' :: rest := hrest
    exact absurd (isNameChar_of_mem hisName '[' List.mem_cons_self) (by decide)
  · exact if_pos hisName

theorem parseChars_of_list {text element : List Char} {isMarked : Bool}
    (h : Encloses text ('[' :: (element ++ [']'])) isMarked) :
    parseChars text = (parseChars element).map fun t => mark isMarked (.list t) := by
  have hsplit := h.splitMark_trimChars (isBody_brackets element)
  rw [parseChars, hsplit]
  split
  · rename_i rest hrest
    obtain rfl : element ++ [']'] = rest := (List.cons.inj hrest).2
    rw [List.getLast?_concat, if_pos rfl, List.dropLast_concat]
    cases parseChars element <;> rfl
  · rename_i hother
    exact absurd rfl (hother _)

/-- **Nothing else is read** than names and lists. -/
theorem cases_of_parseChars {text : List Char} {t : TypeRef} (h : parseChars text = .ok t) :
    (∃ name isMarked, Encloses text name isMarked ∧ SpellsName name ∧
      t = mark isMarked (.named (String.ofList name))) ∨
    ∃ element isMarked u, Encloses text ('[' :: (element ++ [']'])) isMarked ∧
      parseChars element = .ok u ∧ t = mark isMarked (.list u) := by
  have htext := encloses_splitMark text
  rw [parseChars] at h
  split at h
  · rename_i rest hrest
    split at h
    · rename_i hlast
      obtain ⟨element, rfl⟩ := List.getLast?_eq_some_iff.1 hlast
      rw [hrest] at htext
      rw [List.dropLast_concat] at h
      split at h
      · rename_i u hu
        exact .inr ⟨element, _, u, htext, hu, (Except.ok.inj h).symm⟩
      · cases h
    · cases h
  · split at h
    · rename_i hname
      exact .inl ⟨_, _, htext, isName_iff.1 hname, (Except.ok.inj h).symm⟩
    · cases h

/-! ## What is read -/

theorem wellWrapped_mark (isMarked : Bool) {t : TypeRef} (hplain : t.isNonNull = false)
    (h : t.WellWrapped) : (mark isMarked t).WellWrapped := by
  cases isMarked
  · exact h
  · exact ⟨hplain, h⟩

theorem innermost_mark (isMarked : Bool) (t : TypeRef) :
    (mark isMarked t).innermost = t.innermost := by
  cases isMarked <;> rfl

theorem toList_display_mark (isMarked : Bool) (t : TypeRef) :
    (mark isMarked t).display.toList = t.display.toList ++ optionalMark isMarked := by
  cases isMarked
  · exact (List.append_nil _).symm
  · rw [mark, if_pos rfl, display, String.toList_append]
    rfl

theorem toList_display_list (t : TypeRef) :
    (list t).display.toList = '[' :: (t.display.toList ++ [']']) := by
  rw [display, String.toList_append, String.toList_append]
  rfl

/-- What a text encloses is not blank where the body is not. -/
theorem Encloses.solid {text body : List Char} {isMarked : Bool} (h : Encloses text body isMarked) :
    Text.solid text = Text.solid body ++ optionalMark isMarked := by
  obtain ⟨before, after, hbefore, hafter, rfl⟩ := h
  have hmark : Text.solid (optionalMark isMarked) = optionalMark isMarked := by
    cases isMarked <;> rfl
  rw [Text.solid_append, Text.solid_append, Text.solid_append, Text.solid_eq_nil_iff.2 hbefore,
    Text.solid_eq_nil_iff.2 hafter, hmark, List.nil_append, List.append_nil]

theorem solid_of_spellsName {name : List Char} (h : SpellsName name) : Text.solid name = name := by
  refine List.filter_eq_self.2 fun c hc => ?_
  rw [(isNameChar_spec (isNameChar_of_mem (isName_iff.2 h) c hc)).1]
  rfl

/-- **What is read** is derived from the grammar; it has sound wrappers and a name at its heart, and
is written like the text, but for the blanks. -/
theorem spec_of_parseChars {text : List Char} {t : TypeRef} (h : parseChars text = .ok t) :
    Derives text ∧ t.WellWrapped ∧ SpellsName t.innermost.toList ∧
      t.display.toList = Text.solid text := by
  induction hlength : text.length using Nat.strong_induction_on generalizing text t with
  | _ n ih =>
    rcases cases_of_parseChars h with
      ⟨name, isMarked, htext, hname, rfl⟩ | ⟨element, isMarked, u, htext, hu, rfl⟩
    · refine ⟨.name hname htext, wellWrapped_mark _ rfl trivial, ?_, ?_⟩
      · rw [innermost_mark, innermost, String.toList_ofList]
        exact hname
      · rw [toList_display_mark, display, String.toList_ofList, htext.solid,
          solid_of_spellsName hname]
    · have hshorter : element.length < n := by
        obtain ⟨before, after, -, -, rfl⟩ := htext
        simp only [List.length_append, List.length_cons] at hlength
        omega
      obtain ⟨hderives, hwrapped, hheart, hdisplay⟩ := ih _ hshorter hu rfl
      refine ⟨.list hderives htext, wellWrapped_mark _ rfl hwrapped, ?_, ?_⟩
      · rw [innermost_mark]
        exact hheart
      · have hbrackets : Text.solid ('[' :: (element ++ [']']))
            = '[' :: (Text.solid element ++ [']']) := by
          rw [← List.singleton_append, Text.solid_append, Text.solid_append]
          rfl
        rw [toList_display_mark, toList_display_list, hdisplay, htext.solid, hbrackets]

/-- **Everything that the grammar derives is read.** -/
theorem exists_of_derives {text : List Char} (h : Derives text) :
    ∃ t, parseChars text = .ok t := by
  induction h with
  | name hname htext => exact ⟨_, parseChars_of_name htext hname⟩
  | list _ htext ih =>
    obtain ⟨t, ht⟩ := ih
    exact ⟨_, by rw [parseChars_of_list htext, ht]; rfl⟩

/-! ## Reading back -/

/-- A body encloses itself, with a mark behind it. -/
theorem encloses_append (body : List Char) (isMarked : Bool) :
    Encloses (body ++ optionalMark isMarked) body isMarked :=
  ⟨[], [], by simp, by simp, by simp⟩

/-- **A reference is read back** as it was written, and so is one with a mark put on it. -/
theorem parseChars_display_mark {t : TypeRef} (hwrapped : t.WellWrapped)
    (hheart : SpellsName t.innermost.toList) (isMarked : Bool)
    (hmark : isMarked = true → t.isNonNull = false) :
    parseChars (mark isMarked t).display.toList = .ok (mark isMarked t) := by
  induction t generalizing isMarked with
  | named name =>
    have hname : SpellsName name.toList := hheart
    rw [toList_display_mark, display, parseChars_of_name (encloses_append _ _) hname,
      String.ofList_toList]
  | list t ih =>
    have ht : parseChars t.display.toList = .ok t := ih hwrapped hheart false nofun
    rw [toList_display_mark, toList_display_list, parseChars_of_list (encloses_append _ _), ht]
    rfl
  | nonNull t ih =>
    cases isMarked with
    | true => cases hmark rfl
    | false => exact ih hwrapped.2 hheart true fun _ => hwrapped.1

/-- **Reading type references.**  A text is read just if it is derived from the grammar.  What is
read has no mark for non-null directly on another one and a name at its heart, and it is written as
the text is without its blanks.  And every such reference is what is read where it is written. -/
theorem parse_spec :
    (∀ s : String, (∃ t, parse s = .ok t) ↔ Derives s.toList) ∧
    (∀ (s : String) (t : TypeRef), parse s = .ok t →
      t.WellWrapped ∧ SpellsName t.innermost.toList ∧ t.display.toList = Text.solid s.toList) ∧
    ∀ t : TypeRef, t.WellWrapped → SpellsName t.innermost.toList → parse t.display = .ok t := by
  refine ⟨fun s => ⟨?derives, exists_of_derives⟩, fun s t h => ?reads, fun t h hheart => ?back⟩
  case derives =>
    rintro ⟨t, ht⟩
    exact (spec_of_parseChars ht).1
  case reads => exact (spec_of_parseChars h).2
  case back => exact parseChars_display_mark h hheart false nofun

/-- Blanks may stand inside the brackets, but not before a mark. -/
theorem parse_spec_listOfInts :
    parse " [ Int! ]!\n" = .ok (.nonNull (.list (.nonNull (.named "Int")))) ∧
      Derives " [ Int! ]!\n".toList ∧ ¬ Derives "Int !".toList ∧
      parse "[Int!]!" = .ok (.nonNull (.list (.nonNull (.named "Int")))) := by
  have hread : parse " [ Int! ]!\n" = .ok (.nonNull (.list (.nonNull (.named "Int")))) := by
    decide +kernel
  have hrefused : parse "Int !" = .error ⟨"Int !", "expected a type name"⟩ := by
    decide +kernel
  obtain ⟨hwrapped, hheart, -⟩ := parse_spec.2.1 _ _ hread
  refine ⟨hread, (parse_spec.1 _).1 ⟨_, hread⟩, fun h => ?_, parse_spec.2.2 _ hwrapped hheart⟩
  obtain ⟨t, ht⟩ := (parse_spec.1 _).2 h
  rw [hrefused] at ht
  cases ht

end TypeRef
end ResponseTypes
