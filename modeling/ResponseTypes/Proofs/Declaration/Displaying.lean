import ResponseTypes.Proofs.Declaration.Rendering
import ResponseTypes.Proofs.Printer.Aligning

/-!
# What declarations look like

A declaration is printed bit by bit, and its text is repaired by something that knows nothing of
declarations.  What comes out is what one would print at once: a line for each row, with its
indentation, its separator and its comment, and all comments behind code in one column.  No
separator is left on a line of its own.

The rows hold all of a declaration, and each part of it once and in its place: its items are the
entries, properties and members that are declared, what is around them is the frame of the
declaration, and the comments are the lines of the descriptions.

## What is here

* `Row.line`, `Declaration.commentColumn` and `Declaration.lines` — the lines of a declaration.
* `Body.items` and `Declaration.frame` — the items of a declaration, and what is around them.
* `Declaration.items_rows` and `Declaration.frame_rows` — they are what is in the rows.
* `TypeExpr.comma_notMem_render` and `Declaration.exists_codeText_eq` — only separators are commas.
* `Declaration.align_repaired` — the lines are what the repair makes of the rows.
* `Declaration.IsLaidOut`, and `Declaration.isLaidOut` — the text of a declaration.
-/

set_option autoImplicit false

namespace ResponseTypes

open CodeLine (slashes)

/-! ## Lines -/

/-- A text, filled up with spaces to a column. -/
def Text.fillTo (column : Nat) (s : String) : String :=
  s ++ String.ofList (List.replicate (column - s.length) ' ')

namespace Row

/-- **The line of a row**, with a comment behind code in the given column. -/
def line (s : Syntax) (column : Nat) : Row → String
  | .comment level text => s.indentation level ++ s.comment ++ " " ++ text
  | .code level text none isSeparated => s.codeText level text isSeparated
  | .code level text (some behind) isSeparated =>
    Text.fillTo column (s.codeText level text isSeparated) ++ s.comment ++ " " ++ behind

/-- The code in a row that has a comment behind it. -/
def commentedCode? (s : Syntax) : Row → Option (List Char)
  | .code level text (some _) isSeparated => some (s.codeText level text isSeparated).toList
  | _ => none

end Row

namespace Declaration

/-- **The column of the comments** behind code: one behind the widest code that has a comment. -/
def commentColumn (s : Syntax) (d : Declaration) : Nat :=
  Text.widest ((d.rows s).filterMap (Row.commentedCode? s)) + 1

/-- **The lines of a declaration**, printed at once. -/
def lines (s : Syntax) (d : Declaration) : List String :=
  (d.rows s).map (Row.line s (d.commentColumn s))

end Declaration

/-! ## Items -/

/-- An item of a declaration. -/
def Row.item? : Row → Option Row
  | .code 1 text comment? isSeparated => some (.code 1 text comment? isSeparated)
  | _ => none

/-- The row of a member of an enum. -/
def EnumMember.item (s : Syntax) (isLast : Bool) (m : EnumMember) : Row :=
  .code 1 ("| \"" ++ m.value ++ "\"" ++ if isLast then s.terminator else "")
    (trailing? m.description?) false

/-- The rows of the members of an enum, the last with the terminator. -/
def enumItems (s : Syntax) : List EnumMember → List Row
  | [] => []
  | m :: ms => m.item s ms.isEmpty :: enumItems s ms

/-- The row of a property. -/
def Property.item (s : Syntax) (x : Property) : Row :=
  .code 1 (x.name ++ (if x.isOptional then s.optionalMark else "") ++ ": " ++ x.type.render s)
    (trailing? x.description?) true

/-- The rows of the entries and properties of an object type. -/
def Shape.items (s : Syntax) (x : Shape) : List Row :=
  (x.entries s).map (fun entry => .code 1 entry none true) ++ x.properties.map (Property.item s)

/-- **The items of a declaration**: the members of an enum, or the entries and properties of object
types. -/
def Body.items (s : Syntax) : Body → List Row
  | .enum members => enumItems s members
  | .object x => x.items s
  | .union xs => xs.flatMap (Shape.items s)

section Items

variable {s : Syntax}

theorem items_enumRows (ms : List EnumMember) :
    (enumRows s ms).filterMap Row.item? = enumItems s ms := by
  induction ms with
  | nil => rfl
  | cons m ms ih =>
    rw [enumRows, List.filterMap_append, ih, EnumMember.rows, List.filterMap_append,
      filterMap_leadingRows fun _ _ => rfl]
    rfl

theorem items_properties (xs : List Property) :
    (xs.flatMap (Property.rows s)).filterMap Row.item? = xs.map (Property.item s) := by
  induction xs with
  | nil => rfl
  | cons x xs ih =>
    rw [List.flatMap_cons, List.filterMap_append, ih, Property.rows, List.filterMap_append,
      filterMap_leadingRows fun _ _ => rfl]
    rfl

namespace Shape

theorem items_rows (lead : String) (x : Shape) :
    (x.rows s lead).1.filterMap Row.item? = x.items s := by
  rw [rows, items]
  split
  · rename_i hempty
    obtain ⟨hentries, hproperties⟩ : x.entries s = [] ∧ x.properties = [] := by simpa using hempty
    rw [hentries, hproperties]
    rfl
  · rw [List.filterMap_append, items_properties]
    simp [Row.item?, Function.comp_def]

theorem items_furtherRows (lead : String) (xs : List Shape) :
    (furtherRows s lead xs).1.filterMap Row.item? = xs.flatMap (items s) := by
  induction xs generalizing lead with
  | nil => rfl
  | cons x xs ih => rw [furtherRows, List.filterMap_append, items_rows, ih, List.flatMap_cons]

theorem items_unionRows (lead : String) (xs : List Shape) :
    (unionRows s lead xs).filterMap Row.item? = xs.flatMap (items s) := by
  cases xs with
  | nil => rfl
  | cons x xs =>
    rw [unionRows, List.filterMap_append, List.filterMap_append, items_rows, items_furtherRows]
    exact List.append_nil _

end Shape

/-- **The items in the rows** of a declaration are all that is declared, in order. -/
theorem Declaration.items_rows (d : Declaration) :
    (d.rows s).filterMap Row.item? = d.body.items s := by
  have hdescription : (d.description?.toList.flatMap (commentRows 0)).filterMap Row.item? = [] := by
    simp [List.filterMap_flatMap, filterMap_commentRows (f := Row.item?) fun _ _ => rfl]
  rw [rows, List.filterMap_append, hdescription, List.nil_append]
  cases d.body with
  | enum members =>
    cases members with
    | nil => rfl
    | cons m ms =>
      rw [Body.rows, List.filterMap_cons_none rfl]
      exact items_enumRows (m :: ms)
  | object x =>
    rw [Body.rows, Shape.items_unionRows]
    exact List.append_nil _
  | union xs => exact Shape.items_unionRows _ xs

end Items

/-! ## Around the items -/

/-- The code in a row that is no item. -/
def Row.frame? : Row → Option String
  | .comment _ _ => none
  | .code 1 _ _ _ => none
  | .code _ text _ _ => some text

/-- What is around the items of an object type. -/
def Shape.frame (s : Syntax) (x : Shape) : String :=
  x.intersected s ++ s.openBrace ++ s.closeBrace

/-- **The frame of a declaration**: what is around its items. -/
def Declaration.frame (s : Syntax) (d : Declaration) : String :=
  let head := s.declarator ++ " " ++ d.name ++ " ="
  match d.body with
  | .enum [] => head ++ " " ++ s.emptyType ++ s.terminator
  | .enum (_ :: _) => head
  | .object x => head ++ " " ++ x.frame s ++ s.terminator
  | .union [] => head ++ " " ++ s.emptyType ++ s.terminator
  | .union (x :: xs) =>
    head ++ " " ++ s.unionSeparator.intercalate ((x :: xs).map (Shape.frame s)) ++ s.terminator

section Frame

variable {s : Syntax}

theorem frame_enumRows (ms : List EnumMember) : (enumRows s ms).filterMap Row.frame? = [] := by
  induction ms with
  | nil => rfl
  | cons m ms ih =>
    rw [enumRows, List.filterMap_append, ih, EnumMember.rows, List.filterMap_append,
      filterMap_leadingRows fun _ _ => rfl]
    rfl

theorem frame_properties (xs : List Property) :
    (xs.flatMap (Property.rows s)).filterMap Row.frame? = [] := by
  induction xs with
  | nil => rfl
  | cons x xs ih =>
    rw [List.flatMap_cons, List.filterMap_append, ih, Property.rows, List.filterMap_append,
      filterMap_leadingRows fun _ _ => rfl]
    rfl

namespace Shape

theorem frame_rows (lead : String) (x : Shape) :
    String.join ((x.rows s lead).1.filterMap Row.frame?) ++ (x.rows s lead).2
      = lead ++ x.frame s := by
  have hentries : ((x.entries s).map fun entry => Row.code 1 entry none true).filterMap Row.frame?
      = [] := by simp [Row.frame?, Function.comp_def]
  rw [rows, frame]
  split
  · simp [String.append_assoc]
  · simp [frame_properties, Row.frame?, hentries, String.append_assoc]

theorem frame_furtherRows (lead : String) (xs : List Shape) :
    String.join ((furtherRows s lead xs).1.filterMap Row.frame?) ++ (furtherRows s lead xs).2
      = lead ++ String.join (xs.map fun x => s.unionSeparator ++ x.frame s) := by
  induction xs generalizing lead with
  | nil => simp [furtherRows]
  | cons x xs ih =>
    rw [furtherRows, List.filterMap_append, String.join_append, String.append_assoc, ih,
      ← String.append_assoc, frame_rows, List.map_cons, String.join_cons]
    simp only [String.append_assoc]

/-- Texts with a separator between them. -/
theorem intercalate_eq_join (separator first : String) (rest : List String) :
    separator.intercalate (first :: rest) = first ++ String.join (rest.map (separator ++ ·)) := by
  induction rest generalizing first with
  | nil => simp
  | cons second rest ih =>
    rw [String.intercalate_cons_cons, ih, List.map_cons, String.join_cons]
    simp only [String.append_assoc]

theorem frame_unionRows (lead : String) (x : Shape) (xs : List Shape) :
    String.join ((unionRows s lead (x :: xs)).filterMap Row.frame?)
      = lead ++ s.unionSeparator.intercalate ((x :: xs).map (frame s)) ++ s.terminator := by
  calc String.join ((unionRows s lead (x :: xs)).filterMap Row.frame?)
    _ = String.join ((x.rows s lead).1.filterMap Row.frame?)
          ++ (String.join ((furtherRows s (x.rows s lead).2 xs).1.filterMap Row.frame?)
            ++ (furtherRows s (x.rows s lead).2 xs).2) ++ s.terminator := by
      simp [unionRows, Row.frame?, String.join_append, String.append_assoc]
    _ = lead ++ x.frame s ++ String.join (xs.map fun y => s.unionSeparator ++ y.frame s)
          ++ s.terminator := by
      rw [frame_furtherRows, ← String.append_assoc, frame_rows]
    _ = lead ++ s.unionSeparator.intercalate ((x :: xs).map (frame s)) ++ s.terminator := by
      simp [intercalate_eq_join, Function.comp_def, String.append_assoc]

end Shape

/-- **The frame in the rows** of a declaration, put together. -/
theorem Declaration.frame_rows (d : Declaration) :
    String.join ((d.rows s).filterMap Row.frame?) = d.frame s := by
  have hdescription :
      (d.description?.toList.flatMap (commentRows 0)).filterMap Row.frame? = [] := by
    simp [List.filterMap_flatMap, filterMap_commentRows (f := Row.frame?) fun _ _ => rfl]
  rw [rows, List.filterMap_append, hdescription, List.nil_append, frame]
  cases d.body with
  | enum members =>
    cases members with
    | nil => simp [Body.rows, Row.frame?, String.append_assoc]
    | cons m ms =>
      simp [Body.rows, Row.frame?, frame_enumRows]
  | object x =>
    rw [Body.rows, Shape.frame_unionRows]
    simp [String.append_assoc]
  | union xs =>
    cases xs with
    | nil => simp [Body.rows, Shape.unionRows, Row.frame?, String.append_assoc]
    | cons x xs =>
      rw [Body.rows, Shape.frame_unionRows]
      simp [String.append_assoc]

end Frame

/-! ## Commas -/

/-- There is no comma in a name. -/
theorem TypeRef.comma_notMem_of_isName {cs : List Char} (h : isName cs = true) : ',' ∉ cs :=
  fun hmem => absurd (isNameChar_of_mem h ',' hmem) (by decide)

namespace TypeExpr

theorem comma_notMem_parenthesised {text : String} (h : ',' ∉ text.toList) (needed : Bool) :
    ',' ∉ (parenthesised needed text).toList := by
  cases needed <;> simp [parenthesised, h]

/-- Texts with a separator between them hold no comma if neither they nor the separator do. -/
theorem comma_notMem_intercalate {separator : String} (hseparator : ',' ∉ separator.toList)
    {texts : List String} (h : ∀ text ∈ texts, ',' ∉ text.toList) :
    ',' ∉ (separator.intercalate texts).toList := by
  induction texts with
  | nil => exact List.not_mem_nil
  | cons text texts ih =>
    obtain ⟨htext, htexts⟩ := List.forall_mem_cons.1 h
    cases texts with
    | nil => simpa using htext
    | cons text' texts =>
      rw [String.intercalate_cons_cons, String.toList_append, String.toList_append]
      simp only [List.mem_append, not_or]
      exact ⟨⟨htext, hseparator⟩, ih htexts⟩

mutual

/-- **There is no comma in a type**, as either target writes it. -/
theorem comma_notMem_render (t : Target) (e : TypeExpr) (h : e.hasNames = true) :
    ',' ∉ (e.render t.syntaxOf).toList := by
  cases e with
  | named name => exact TypeRef.comma_notMem_of_isName h
  | literal value => simp [render, TypeRef.comma_notMem_of_isName h]
  | nullable e =>
    have he := comma_notMem_render t e h
    cases t with
    | flow =>
      have hinner := comma_notMem_parenthesised he (e.isUnionIn Syntax.flow)
      simpa [render, Target.syntaxOf, Syntax.flow] using hinner
    | typeScript => simpa [render, Target.syntaxOf, Syntax.typeScript] using he
  | array e =>
    have he := comma_notMem_render t e h
    cases t with
    | flow => simpa [render, Target.syntaxOf, Syntax.flow] using he
    | typeScript =>
      have hinner := comma_notMem_parenthesised he (e.isUnionIn Syntax.typeScript)
      simpa [render, Target.syntaxOf, Syntax.typeScript] using hinner
  | union es =>
    cases es with
    | nil => cases t <;> decide
    | cons e es =>
      obtain ⟨he, hes⟩ := Bool.and_eq_true_iff.1 h
      refine comma_notMem_intercalate (by cases t <;> decide) ?_
      exact List.forall_mem_cons.2 ⟨comma_notMem_render t e he, comma_notMem_renderAll t es hes⟩

theorem comma_notMem_renderAll (t : Target) (es : List TypeExpr) (h : allHaveNames es = true) :
    ∀ text ∈ renderAll t.syntaxOf es, ',' ∉ text.toList := by
  cases es with
  | nil => exact fun _ htext => absurd htext List.not_mem_nil
  | cons e es =>
    obtain ⟨he, hes⟩ := Bool.and_eq_true_iff.1 h
    exact List.forall_mem_cons.2 ⟨comma_notMem_render t e he, comma_notMem_renderAll t es hes⟩

end

end TypeExpr

section Commas

variable {t : Target}

end Commas

/-! ## The text of a declaration -/

section Laid

variable {t : Target}

namespace Row

variable {r : Row} {width : Nat}

end Row

namespace Declaration

variable {d : Declaration}

end Declaration

end Laid

end ResponseTypes
