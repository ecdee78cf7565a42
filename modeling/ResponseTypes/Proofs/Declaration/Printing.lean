import ResponseTypes.Proofs.Declaration.Names
import ResponseTypes.Proofs.Printer.Growing

/-!
# Printing rows

The text of a declaration is printed bit by bit: lines are begun and continued, and the separator of
a property comes behind its comment.  What a printer has printed at each step are lines of text, and
when a declaration has been printed these are the lines of its rows.

## What is here

* `Row.printed` — the lines that a row is printed as.
* `Printer.Shows` — the lines that a printer has printed; `Shows.onNewline` and `Shows.print` — a
  new line, and more on the last one.
* `Declaration.toList_print` — the text of a declaration before its commas are repaired.
-/

set_option autoImplicit false

namespace ResponseTypes

/-- The indentation of a line on a level. -/
def Syntax.indentation (s : Syntax) (level : Nat) : String :=
  String.join (List.replicate level s.indent)

/-- A comment behind a line of code, as it is printed. -/
def Syntax.behind (s : Syntax) (comment? : Option String) : String :=
  comment?.elim "" fun comment => " " ++ s.comment ++ " " ++ comment

/-- The lines that a row is printed as: what separates it from the next has a line of its own. -/
def Row.printed (s : Syntax) : Row → List (List Char)
  | .comment level text => [(s.indentation level ++ (s.comment ++ " " ++ text)).toList]
  | .code level text comment? isSeparated =>
    (s.indentation level ++ text ++ s.behind comment?).toList
      :: if isSeparated then [(s.indentation level ++ s.separator).toList] else []

@[simp] theorem Syntax.indentation_zero (s : Syntax) : s.indentation 0 = "" := rfl

/-- The characters of an indentation are those it is made of. -/
theorem Syntax.forall_mem_indentation {s : Syntax} {P : Char → Prop}
    (h : ∀ c ∈ s.indent.toList, P c) (level : Nat) : ∀ c ∈ (s.indentation level).toList, P c := by
  intro c hc
  rw [indentation, String.toList_join] at hc
  obtain ⟨text, htext, hc⟩ := List.mem_flatMap.1 hc
  rw [List.eq_of_mem_replicate htext] at hc
  exact h c hc

/-- Code on the outermost level, without comment or separator, is printed as it is. -/
@[simp] theorem Row.printed_code_zero (s : Syntax) (text : String) :
    Row.printed s (.code 0 text none false) = [text.toList] := by
  simp [printed, Syntax.behind]

/-! ## Lines put together -/

theorem intercalate_concat {sep l : List Char} {ls : List (List Char)} (h : ls ≠ []) :
    sep.intercalate (ls ++ [l]) = sep.intercalate ls ++ sep ++ l := by
  induction ls with
  | nil => exact absurd rfl h
  | cons l' ls ih =>
    cases ls with
    | nil => simp [List.intercalate_cons_cons]
    | cons l'' ls =>
      simp only [List.cons_append] at ih ⊢
      rw [List.intercalate_cons_cons, ih (List.cons_ne_nil _ _), List.intercalate_cons_cons]
      simp

theorem intercalate_concat_append {sep l more : List Char} (ls : List (List Char)) :
    sep.intercalate (ls ++ [l]) ++ more = sep.intercalate (ls ++ [l ++ more]) := by
  by_cases h : ls = []
  · simp [h]
  · rw [intercalate_concat h, intercalate_concat h, List.append_assoc _ l]

theorem getLast?_intercalate_concat (sep : List Char) {l : List Char} (ls : List (List Char))
    (h : l ≠ []) :
    (sep.intercalate (ls ++ [l])).getLast? = some (l.getLast h) := by
  have hsplit : sep.intercalate (ls ++ [l]) = sep.intercalate (ls ++ [[]]) ++ l := by
    rw [intercalate_concat_append, List.nil_append]
  rw [hsplit, List.getLast?_append, List.getLast?_eq_some_getLast h]
  rfl

namespace Printer

/-! ## What a printer has printed -/

/-- A printer prints for a target on a level, and has printed some lines. -/
structure Shows (p : Printer) (s : Syntax) (level : Nat) (lines : List (List Char)) : Prop where
  target : p.target = s
  level_eq : p.level = level
  output : p.output.toList = ['\n'].intercalate lines
  lines : ∀ l ∈ lines, l ≠ [] ∧ '\n' ∉ l

namespace Shows

variable {p : Printer} {s : Syntax} {n : Nat} {ls : List (List Char)} {l : List Char}

theorem start (s : Syntax) : Shows { target := s } s 0 [] :=
  ⟨rfl, rfl, rfl, fun _ h => absurd h List.not_mem_nil⟩

theorem deeper (h : p.Shows s n ls) : p.deeper.Shows s (n + 1) ls :=
  ⟨h.target, congrArg (· + 1) h.level_eq, h.output, h.lines⟩

theorem shallower (h : p.Shows s (n + 1) ls) : p.shallower.Shows s n ls :=
  ⟨h.target, by rw [Printer.shallower, h.level_eq]; rfl, h.output, h.lines⟩

theorem indentation_eq (h : p.Shows s n ls) : p.indentation = s.indentation n := by
  rw [indentation, h.target, h.level_eq]
  rfl

/-- **More is printed** on the last line. -/
theorem print (h : p.Shows s n (ls ++ [l])) (text : String) (htext : '\n' ∉ text.toList) :
    (p.print text).Shows s n (ls ++ [l ++ text.toList]) := by
  obtain ⟨hls, hne, hl⟩ : (∀ l ∈ ls, l ≠ [] ∧ '\n' ∉ l) ∧ l ≠ [] ∧ '\n' ∉ l := by
    simpa using List.forall_mem_append.1 h.lines
  have hlast : p.output.toList.getLast? = some (l.getLast hne) := by
    rw [h.output, getLast?_intercalate_concat _ ls hne]
  have hstart : p.atLineStart = false := by
    have hc : l.getLast hne ≠ '\n' := fun hc => hl (hc ▸ List.getLast_mem hne)
    simp [atLineStart, hlast, hc]
  rw [Printer.print]
  split
  · rename_i hempty
    simpa [hempty] using h
  · refine ⟨h.target, h.level_eq, ?_, ?_⟩
    · simp only [hstart, String.toList_append]
      rw [← intercalate_concat_append, h.output]
      simp
    · refine List.forall_mem_append.2 ⟨hls, List.forall_mem_singleton.2 ⟨by simp [hne], ?_⟩⟩
      simp [hl, htext]

/-- **A new line is printed.** -/
theorem onNewline (h : p.Shows s n ls) {text : String} (hne : text ≠ "")
    (htext : '\n' ∉ (s.indentation n ++ text).toList) :
    (p.onNewline text).Shows s n (ls ++ [(s.indentation n ++ text).toList]) := by
  have hline : (s.indentation n ++ text).toList ≠ [] := by simp [hne]
  -- The line is indented, for it starts the text or stands behind a line break.
  suffices hstart : p.newline.atLineStart = true ∧
      p.newline.output.toList ++ (s.indentation n ++ text).toList
        = ['\n'].intercalate (ls ++ [(s.indentation n ++ text).toList]) by
    have hnewline : p.newline.indentation = s.indentation n := by
      rw [← h.indentation_eq, newline]
      split <;> rfl
    rw [Printer.onNewline, Printer.print, if_neg hne]
    refine ⟨?_, ?_, ?_, ?_⟩
    · exact (p.continues_newline).target.trans h.target
    · rw [← h.level_eq, newline]
      split <;> rfl
    · simp only [hstart.1, if_true, hnewline]
      rw [← hstart.2, String.append_assoc, String.toList_append]
    · exact List.forall_mem_append.2 ⟨h.lines, List.forall_mem_singleton.2 ⟨hline, htext⟩⟩
  rcases List.eq_nil_or_concat' ls with rfl | ⟨init, l, rfl⟩
  · have hempty : p.output = "" := by simpa using h.output
    simp [newline, hempty, atLineStart]
  · have houtput : p.output ≠ "" := by
      intro hempty
      have hlast := getLast?_intercalate_concat ['\n'] init (h.lines l (by simp)).1
      rw [← h.output, hempty] at hlast
      cases hlast
    rw [newline, if_neg houtput, intercalate_concat (by simp), ← h.output]
    simp [atLineStart]

end Shows

/-! ## Comments -/

variable {t : Target} {p : Printer} {n : Nat} {ls : List (List Char)} {l : List Char}

theorem plain_indentation (t : Target) (level : Nat) :
    Text.Plain (t.syntaxOf.indentation level).toList :=
  Syntax.forall_mem_indentation (show Text.Plain _ by cases t <;> decide) level

namespace Shows

/-- A line of code is printed. -/
theorem onNewline_plain (h : p.Shows t.syntaxOf n ls) {text : String} (hne : text ≠ "")
    (htext : Text.Plain text.toList) :
    (p.onNewline text).Shows t.syntaxOf n
      (ls ++ [(t.syntaxOf.indentation n ++ text).toList]) := by
  refine h.onNewline hne ?_
  rw [String.toList_append]
  exact (Text.Plain.append_iff.2 ⟨plain_indentation t n, htext⟩).newline_notMem

theorem comment (h : p.Shows t.syntaxOf n ls) {text : String} (htext : IsComment text) :
    (p.onNewline (p.target.comment ++ " " ++ text)).Shows t.syntaxOf n
      (ls ++ Row.printed t.syntaxOf (.comment n text)) := by
  rw [h.target]
  refine h.onNewline (by cases t <;> simp [Target.syntaxOf, Syntax.flow, Syntax.typeScript]) ?_
  have hcomment : '\n' ∉ t.syntaxOf.comment.toList := by cases t <;> decide
  simp [(plain_indentation t n).newline_notMem, hcomment, htext.newline]

/-- The comments of a description. -/
theorem commentLines (h : p.Shows t.syntaxOf n ls) (description : String) :
    (p.commentLines description).Shows t.syntaxOf n
      (ls ++ (commentRows n description).flatMap (Row.printed t.syntaxOf)) := by
  rw [Printer.commentLines, commentRows]
  have hcomments : ∀ text ∈ commentsOf description, IsComment text :=
    fun _ => isComment_of_mem_commentsOf
  rw [commentsOf] at hcomments ⊢
  generalize Text.lines (Text.trim description) = lines at hcomments ⊢
  induction lines generalizing p ls with
  | nil => simpa using h
  | cons line lines ih =>
    obtain ⟨hline, hlines⟩ := List.forall_mem_cons.1 hcomments
    simpa using ih (h.comment hline) hlines

theorem leadingComment (h : p.Shows t.syntaxOf n ls) (description? : Option String) :
    (p.leadingComment description?).Shows t.syntaxOf n
      (ls ++ (leadingRows n description?).flatMap (Row.printed t.syntaxOf)) := by
  cases description? with
  | none => simpa [leadingRows, Printer.leadingComment] using h
  | some description =>
    by_cases hsingle : isSingleLine (Text.trim description) = true
    · simpa [leadingRows, Printer.leadingComment, hsingle] using h
    · have hrows : commentRows n (Text.trim description) = commentRows n description := by
        rw [commentRows, commentRows, commentsOf, commentsOf, Text.trim_trim]
      simp only [leadingRows, Printer.leadingComment, Option.map_some, if_neg hsingle]
      rw [← hrows]
      exact h.commentLines _

theorem trailingComment (h : p.Shows t.syntaxOf n (ls ++ [l])) (description? : Option String) :
    (p.trailingComment description?).Shows t.syntaxOf n
      (ls ++ [l ++ (t.syntaxOf.behind (trailing? description?)).toList]) := by
  cases description? with
  | none => simpa [trailing?, Syntax.behind, Printer.trailingComment] using h
  | some description =>
    rw [Printer.trailingComment, Option.map_some, trailing?, Option.map_some, Option.filter_some]
    by_cases hsingle : isSingleLine (Text.trim description) = true
    · obtain ⟨-, hnewline⟩ : Text.trim description ≠ "" ∧
          '\n' ∉ (Text.trim description).toList := by simpa [isSingleLine] using hsingle
      have hcomment : '\n' ∉ t.syntaxOf.comment.toList := by cases t <;> decide
      simp only [hsingle, if_true, h.target]
      exact h.print _ (by simp [hcomment, hnewline])
    · simpa [hsingle, Syntax.behind] using h

/-! ## Members and properties -/

/-- The members of an enum. -/
theorem enumMembers (h : p.Shows t.syntaxOf 1 ls) {ms : List EnumMember}
    (hms : ∀ m ∈ ms, TypeRef.isName m.value.toList = true) :
    (p.enumMembers ms).Shows t.syntaxOf 1
      (ls ++ (enumRows t.syntaxOf ms).flatMap (Row.printed t.syntaxOf)) := by
  induction ms generalizing p ls with
  | nil => simpa [enumRows, Printer.enumMembers] using h
  | cons m ms ih =>
    obtain ⟨hm, hms⟩ := List.forall_mem_cons.1 hms
    have hvalue : Text.Plain ("| \"" ++ m.value ++ "\"").toList := by
      simp only [String.toList_append, Text.Plain.append_iff]
      exact ⟨⟨by decide, (TypeRef.isCode_of_isName hm).plain⟩, by decide⟩
    have hfirst := (h.leadingComment m.description?).onNewline_plain (by simp) hvalue
    rw [Printer.enumMembers]
    generalize (p.leadingComment m.description?).onNewline ("| \"" ++ m.value ++ "\"") = q
      at hfirst ⊢
    have hmember : Shows (if ms.isEmpty then q.print q.target.terminator else q) t.syntaxOf 1
        (ls ++ (leadingRows 1 m.description?).flatMap (Row.printed t.syntaxOf) ++
          [(t.syntaxOf.indentation 1 ++ ("| \"" ++ m.value ++ "\"" ++
            if ms.isEmpty then t.syntaxOf.terminator else "")).toList]) := by
      cases ms with
      | nil =>
        have hterminator := hfirst.print t.syntaxOf.terminator (by cases t <;> decide)
        rw [hfirst.target]
        simpa using hterminator
      | cons m' ms => simpa using hfirst
    have hrows := ih (hmember.trailingComment m.description?) hms
    simpa [enumRows, EnumMember.rows, Row.printed] using hrows

/-- A property. -/
theorem property (h : p.Shows t.syntaxOf 1 ls) {x : Property} (hx : x.hasNames = true) :
    (p.property x).Shows t.syntaxOf 1
      (ls ++ (x.rows t.syntaxOf).flatMap (Row.printed t.syntaxOf)) := by
  have hseparator : Text.Plain t.syntaxOf.separator.toList := by cases t <;> decide
  have hcode := (Property.isCode (t := t) hx).plain
  have hne : x.name ++ (if x.isOptional then t.syntaxOf.optionalMark else "") ++ ": "
      ++ x.type.render t.syntaxOf ≠ "" := by simp
  have hline := (h.leadingComment x.description?).onNewline_plain hne hcode
  have htrailing := hline.trailingComment x.description?
  have hrows := htrailing.onNewline_plain (by cases t <;> decide) hseparator
  rw [Printer.property, h.target]
  simpa [Property.rows, Row.printed] using hrows

theorem properties (h : p.Shows t.syntaxOf 1 ls) {xs : List Property}
    (hxs : ∀ x ∈ xs, x.hasNames = true) :
    (xs.foldl Printer.property p).Shows t.syntaxOf 1
      (ls ++ (xs.flatMap (Property.rows t.syntaxOf)).flatMap (Row.printed t.syntaxOf)) := by
  induction xs generalizing p ls with
  | nil => simpa using h
  | cons x xs ih =>
    obtain ⟨hx, hxs⟩ := List.forall_mem_cons.1 hxs
    simpa using ih (h.property hx) hxs

theorem spreadEntries (h : p.Shows t.syntaxOf 1 ls) {entries : List String}
    (hentries : ∀ entry ∈ entries, IsCode entry.toList) :
    (entries.foldl Printer.spreadEntry p).Shows t.syntaxOf 1
      (ls ++ (entries.map fun entry => .code 1 entry none true).flatMap
        (Row.printed t.syntaxOf)) := by
  have hseparator : Text.Plain t.syntaxOf.separator.toList := by cases t <;> decide
  induction entries generalizing p ls with
  | nil => simpa using h
  | cons entry entries ih =>
    obtain ⟨hentry, hentries⟩ := List.forall_mem_cons.1 hentries
    have hne : entry ≠ "" := by
      rintro rfl
      obtain ⟨c, hc, -⟩ := hentry.head
      cases hc
    have hline := h.onNewline_plain hne hentry.plain
    have hrow := hline.onNewline_plain (by cases t <;> decide) hseparator
    simpa [Row.printed, Syntax.behind, Printer.spreadEntry, h.target] using ih hrow hentries

/-! ## Object types -/

/-- The body of an object type, which is closed on the line on which it is opened if there is
nothing in it. -/
theorem objectBody (h : p.Shows t.syntaxOf 0 (ls ++ [l])) {entries : List String}
    (hentries : ∀ entry ∈ entries, IsCode entry.toList) {xs : List Property}
    (hxs : ∀ x ∈ xs, x.hasNames = true) :
    (p.objectBody entries xs).Shows t.syntaxOf 0
      (if entries.isEmpty && xs.isEmpty then
        ls ++ [l ++ (t.syntaxOf.openBrace ++ t.syntaxOf.closeBrace).toList]
      else
        ls ++ [l ++ t.syntaxOf.openBrace.toList] ++
          (entries.map fun entry => .code 1 entry none true).flatMap (Row.printed t.syntaxOf) ++
          (xs.flatMap (Property.rows t.syntaxOf)).flatMap (Row.printed t.syntaxOf) ++
          [t.syntaxOf.closeBrace.toList]) := by
  rw [Printer.objectBody, h.target]
  split
  · exact h.print _ (by cases t <;> decide)
  · have hopened := h.print t.syntaxOf.openBrace (by cases t <;> decide)
    have hinside : (p.openBlock t.syntaxOf.openBrace).Shows t.syntaxOf 1
        (ls ++ [l ++ t.syntaxOf.openBrace.toList]) :=
      Shows.deeper ⟨hopened.target, hopened.level_eq, hopened.output, hopened.lines⟩
    have hbody := (hinside.spreadEntries hentries).properties hxs
    exact hbody.shallower.onNewline_plain (by cases t <;> decide) (by cases t <;> decide)

theorem spreads {separator : String} (hseparator : '\n' ∉ separator.toList) {names : List String}
    (hnames : ∀ name ∈ names, TypeRef.isName name.toList = true)
    (h : p.Shows t.syntaxOf n (ls ++ [l])) :
    (names.foldl (fun p name => p.print (name ++ separator)) p).Shows t.syntaxOf n
      (ls ++ [l ++ (String.join (names.map fun name => name ++ separator)).toList]) := by
  induction names generalizing p l with
  | nil => simpa using h
  | cons name names ih =>
    obtain ⟨hname, hnames⟩ := List.forall_mem_cons.1 hnames
    have hprinted := h.print (name ++ separator)
      (by simp [hseparator, (TypeRef.isCode_of_isName hname).plain.newline_notMem])
    simpa [String.toList_join] using ih hnames hprinted

/-- An object type. -/
theorem shape {lead : String} (h : p.Shows t.syntaxOf 0 (ls ++ [lead.toList])) {x : Shape}
    (hx : x.hasNames = true) :
    (p.shape x).Shows t.syntaxOf 0
      (ls ++ (x.rows t.syntaxOf lead).1.flatMap (Row.printed t.syntaxOf)
        ++ [(x.rows t.syntaxOf lead).2.toList]) := by
  obtain ⟨hspreads, hproperties⟩ : (∀ f ∈ x.spreads, TypeRef.isName f.toList = true) ∧
      ∀ property ∈ x.properties, property.hasNames = true := by simpa [Shape.hasNames] using hx
  -- The targets differ in what they print before the body only.
  obtain ⟨q, hq, hshows⟩ : ∃ q : Printer,
      p.shape x = q.objectBody (x.entries t.syntaxOf) x.properties ∧
        q.Shows t.syntaxOf 0 (ls ++ [(lead ++ x.intersected t.syntaxOf).toList]) := by
    rw [Printer.shape, h.target]
    cases t with
    | flow => exact ⟨p, rfl, by simpa [Shape.intersected, Target.syntaxOf, Syntax.flow] using h⟩
    | typeScript =>
      refine ⟨_, rfl, ?_⟩
      rw [String.toList_append]
      exact h.spreads (by decide) hspreads
  have hbody := hshows.objectBody (Shape.isCode_of_mem_entries (t := t) hx) hproperties
  rw [hq, Shape.rows]
  split
  · rename_i hempty
    simpa [hempty] using hbody
  · rename_i hne
    simpa [hne, Row.printed, Syntax.behind, Syntax.indentation] using hbody

theorem furtherShapes {lead : String} (h : p.Shows t.syntaxOf 0 (ls ++ [lead.toList]))
    {xs : List Shape} (hxs : ∀ x ∈ xs, x.hasNames = true) :
    (p.furtherShapes xs).Shows t.syntaxOf 0
      (ls ++ (Shape.furtherRows t.syntaxOf lead xs).1.flatMap (Row.printed t.syntaxOf)
        ++ [(Shape.furtherRows t.syntaxOf lead xs).2.toList]) := by
  induction xs generalizing p ls lead with
  | nil => simpa [Shape.furtherRows, Printer.furtherShapes] using h
  | cons x xs ih =>
    obtain ⟨hx, hxs⟩ := List.forall_mem_cons.1 hxs
    have hseparated := h.print t.syntaxOf.unionSeparator (by cases t <;> decide)
    rw [← String.toList_append] at hseparated
    have hrest := ih (hseparated.shape hx) hxs
    simpa [Shape.furtherRows, Printer.furtherShapes, h.target] using hrest

/-! ## Declarations -/

/-- Object types and the end of a declaration, behind the words that declare it. -/
theorem unionRows {lead : String} {x : Shape} {xs : List Shape}
    (h : p.Shows t.syntaxOf 0 (ls ++ [lead.toList])) (hxs : ∀ x' ∈ x :: xs, x'.hasNames = true) :
    (((p.shape x).furtherShapes xs).print t.syntaxOf.terminator).Shows t.syntaxOf 0
      (ls ++ (Shape.unionRows t.syntaxOf lead (x :: xs)).flatMap (Row.printed t.syntaxOf)) := by
  obtain ⟨hx, hxs⟩ := List.forall_mem_cons.1 hxs
  have hend := ((h.shape hx).furtherShapes hxs).print t.syntaxOf.terminator
    (by cases t <;> decide)
  simpa [Shape.unionRows, Row.printed, Syntax.behind, Syntax.indentation] using hend

/-- **A declaration is printed as its rows.** -/
theorem declaration (h : p.Shows t.syntaxOf 0 ls) {d : Declaration} (hd : d.hasNames = true) :
    (p.declaration d).Shows t.syntaxOf 0
      (ls ++ (d.rows t.syntaxOf).flatMap (Row.printed t.syntaxOf)) := by
  obtain ⟨name, description?, body, nested⟩ := d
  obtain ⟨hname, hbody⟩ : TypeRef.isName name.toList = true ∧ body.hasNames = true := by
    simpa [Declaration.hasNames, Declaration.name, Declaration.body] using hd
  suffices hundescribed : ∀ {p : Printer} {ls : List (List Char)}, p.Shows t.syntaxOf 0 ls →
      (p.declaration (.mk name none body nested)).Shows t.syntaxOf 0
        (ls ++ (body.rows t.syntaxOf name).flatMap (Row.printed t.syntaxOf)) by
    cases description? with
    | none => exact hundescribed h
    | some description =>
      have hrows : (Declaration.mk name (some description) body nested).rows t.syntaxOf
          = commentRows 0 description ++ body.rows t.syntaxOf name := by
        simp [Declaration.rows, Declaration.description?, Declaration.name, Declaration.body]
      rw [declaration_described, hrows, List.flatMap_append, ← List.append_assoc]
      exact hundescribed (h.commentLines description)
  intro p ls h
  have hdeclarator := (isLead_declarator (t := t) hname).plain
  have hhead : ∀ text : String, Text.Plain text.toList →
      (p.onNewline (t.syntaxOf.declarator ++ " " ++ name ++ text)).Shows t.syntaxOf 0
        (ls ++ [(t.syntaxOf.declarator ++ " " ++ name ++ text).toList]) := by
    intro text htext
    have hplain : Text.Plain (t.syntaxOf.declarator ++ " " ++ name ++ text).toList := by
      rw [String.toList_append, Text.Plain.append_iff]
      exact ⟨hdeclarator, htext⟩
    have hline := h.onNewline_plain (by simp) hplain
    rwa [Syntax.indentation_zero, String.empty_append] at hline
  rw [Printer.declaration, h.target]
  simp only [Declaration.description?, Declaration.name, Declaration.body]
  cases body with
  | enum members =>
    simp only [enumBody, h.target]
    cases members with
    | nil =>
      have hplain : Text.Plain (" = " ++ t.syntaxOf.emptyType ++ t.syntaxOf.terminator).toList := by
        cases t <;> decide
      simpa only [Body.rows, Row.printed_code_zero, List.flatMap_singleton, String.append_assoc,
        List.isEmpty_nil, if_true] using hhead _ hplain
    | cons m ms =>
      have hmembers : ∀ m' ∈ m :: ms, TypeRef.isName m'.value.toList = true :=
        List.all_eq_true.1 hbody
      have hrows := ((hhead " =" (by decide)).deeper.enumMembers hmembers).shallower
      rw [List.isEmpty_cons, if_neg Bool.false_ne_true, indented]
      simpa only [Body.rows, Row.printed_code_zero, List.flatMap_cons, List.append_assoc]
        using hrows
  | object x => exact (hhead " = " (by decide)).unionRows (List.forall_mem_singleton.2 hbody)
  | union xs =>
    have hxs : ∀ x ∈ xs, x.hasNames = true := List.all_eq_true.1 hbody
    cases xs with
    | nil =>
      have hrow := ((hhead " = " (by decide)).print t.syntaxOf.emptyType
        (by cases t <;> decide)).print t.syntaxOf.terminator (by cases t <;> decide)
      simpa only [Body.rows, Shape.unionRows, Row.printed_code_zero, List.flatMap_singleton,
        String.toList_append] using hrow
    | cons x xs => exact (hhead " = " (by decide)).unionRows hxs

end Shows

end Printer

end ResponseTypes
