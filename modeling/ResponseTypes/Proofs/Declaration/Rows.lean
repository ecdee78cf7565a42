import ResponseTypes.Declaration.Layout
import ResponseTypes.Proofs.Text.Lines
import ResponseTypes.Proofs.Text.Trimming
import ResponseTypes.TypeRef

/-!
# The rows of a declaration

A declaration is laid out in rows: comments on lines of their own, and lines of code, which may have
a comment behind them and be separated from the next row.  The rows are what the text of a
declaration is to show, whatever way it is printed in.

## What is here

* `Row` — a row, the comment in it, and what is left without the comment.
* `Property.rows`, `EnumMember.rows`, `Shape.rows`, `Body.rows`, `Declaration.rows` — the rows of a
  declaration.
* `Declaration.undescribed` and `Declaration.rows_undescribed` — without descriptions, there are the
  same lines of code.
* `Declaration.descriptions` and `Declaration.comments_rows` — the comments are the lines of the
  descriptions.
-/

set_option autoImplicit false

namespace ResponseTypes

/-! ## Rows -/

/-- A row of a declaration: a comment, or code with a comment behind it, which may be separated from
what follows. -/
inductive Row where
  | comment (level : Nat) (text : String)
  | code (level : Nat) (text : String) (comment? : Option String) (isSeparated : Bool)
deriving DecidableEq, Repr

namespace Row

/-- The comment in a row. -/
def comment? : Row → Option String
  | .comment _ text => some text
  | .code _ _ comment? _ => comment?

/-- The row without the comment, if there is any code in it. -/
def stripped? : Row → Option Row
  | .comment _ _ => none
  | .code level text _ isSeparated => some (.code level text none isSeparated)

end Row

/-! ## Rows of descriptions -/

/-- The comments of a description: its lines, without the blanks around them. -/
def commentsOf (description : String) : List String :=
  (Text.lines (Text.trim description)).map Text.trim

/-- A description as comments on lines of their own. -/
def commentRows (level : Nat) (description : String) : List Row :=
  (commentsOf description).map (.comment level)

/-- The comments before a property or a member of an enum. -/
def leadingRows (level : Nat) (description? : Option String) : List Row :=
  match description? with
  | none => []
  | some description =>
    if Printer.isSingleLine (Text.trim description) then [] else commentRows level description

/-- The comment behind a property or a member of an enum. -/
def trailing? (description? : Option String) : Option String :=
  (description?.map Text.trim).filter Printer.isSingleLine

section Projection

variable {α : Type} {f : Row → Option α} (hf : ∀ level text, f (.comment level text) = none)

include hf

/-- What is taken from code only is not in the comments of a description. -/
theorem filterMap_commentRows (level : Nat) (description : String) :
    (commentRows level description).filterMap f = [] := by
  simp [commentRows, hf]

theorem filterMap_leadingRows (level : Nat) (description? : Option String) :
    (leadingRows level description?).filterMap f = [] := by
  cases description? with
  | none => rfl
  | some description =>
    rw [leadingRows]
    split
    · rfl
    · exact filterMap_commentRows hf level description

end Projection

/-! ## Rows of declarations -/

/-- The rows of a member of an enum. -/
def EnumMember.rows (s : Syntax) (isLast : Bool) (m : EnumMember) : List Row :=
  leadingRows 1 m.description? ++
    [.code 1 ("| \"" ++ m.value ++ "\"" ++ if isLast then s.terminator else "")
      (trailing? m.description?) false]

/-- The rows of the members of an enum. -/
def enumRows (s : Syntax) : List EnumMember → List Row
  | [] => []
  | m :: ms => m.rows s ms.isEmpty ++ enumRows s ms

/-- The rows of a property. -/
def Property.rows (s : Syntax) (x : Property) : List Row :=
  leadingRows 1 x.description? ++
    [.code 1 (x.name ++ (if x.isOptional then s.optionalMark else "") ++ ": " ++ x.type.render s)
      (trailing? x.description?) true]

namespace Shape

/-- What refers to fragments in the body of an object type. -/
def entries (s : Syntax) (x : Shape) : List String :=
  match s.fragment with
  | .entry marker => x.spreads.map fun f => marker ++ f
  | .intersection _ => []

/-- What refers to fragments before the body of an object type. -/
def intersected (s : Syntax) (x : Shape) : String :=
  match s.fragment with
  | .entry _ => ""
  | .intersection separator => String.join (x.spreads.map fun f => f ++ separator)

/-- The rows of an object type behind the start of a line, and the start of the line behind it. -/
def rows (s : Syntax) (lead : String) (x : Shape) : List Row × String :=
  if (x.entries s).isEmpty && x.properties.isEmpty then
    ([], lead ++ x.intersected s ++ (s.openBrace ++ s.closeBrace))
  else
    (.code 0 (lead ++ x.intersected s ++ s.openBrace) none false
        :: (x.entries s).map (fun entry => .code 1 entry none true)
        ++ x.properties.flatMap (Property.rows s),
      s.closeBrace)

/-- The rows of further object types of a union. -/
def furtherRows (s : Syntax) (lead : String) : List Shape → List Row × String
  | [] => ([], lead)
  | x :: xs =>
    let first := x.rows s (lead ++ s.unionSeparator)
    let rest := furtherRows s first.2 xs
    (first.1 ++ rest.1, rest.2)

/-- The rows of object types behind the start of a line, and the end of the declaration. -/
def unionRows (s : Syntax) (lead : String) : List Shape → List Row
  | [] => [.code 0 (lead ++ s.emptyType ++ s.terminator) none false]
  | x :: xs =>
    let first := x.rows s lead
    let rest := furtherRows s first.2 xs
    first.1 ++ rest.1 ++ [.code 0 (rest.2 ++ s.terminator) none false]

end Shape

/-- The rows of what is declared under a name. -/
def Body.rows (s : Syntax) (name : String) : Body → List Row
  | .enum [] => [.code 0 (s.declarator ++ " " ++ name ++ " = " ++ s.emptyType ++ s.terminator) none
      false]
  | .enum (m :: ms) => .code 0 (s.declarator ++ " " ++ name ++ " =") none false
      :: enumRows s (m :: ms)
  | .object x => Shape.unionRows s (s.declarator ++ " " ++ name ++ " = ") [x]
  | .union xs => Shape.unionRows s (s.declarator ++ " " ++ name ++ " = ") xs

/-- **The rows of a declaration**, without those inside. -/
def Declaration.rows (s : Syntax) (d : Declaration) : List Row :=
  d.description?.toList.flatMap (commentRows 0) ++ d.body.rows s d.name

/-! ## Without descriptions -/

/-- The property without its description. -/
def Property.undescribed (x : Property) : Property :=
  { x with description? := none }

/-- The member of an enum without its description. -/
def EnumMember.undescribed (m : EnumMember) : EnumMember :=
  { m with description? := none }

/-- The object type without descriptions. -/
def Shape.undescribed (x : Shape) : Shape :=
  { x with properties := x.properties.map Property.undescribed }

/-- The body without descriptions. -/
def Body.undescribed : Body → Body
  | .enum members => .enum (members.map EnumMember.undescribed)
  | .object x => .object x.undescribed
  | .union xs => .union (xs.map Shape.undescribed)

/-- **The declaration without descriptions.** -/
def Declaration.undescribed (d : Declaration) : Declaration :=
  .mk d.name none d.body.undescribed d.nested

section Stripped

variable {s : Syntax}

@[simp] theorem filterMap_stripped?_commentRows (level : Nat) (description : String) :
    (commentRows level description).filterMap Row.stripped? = [] :=
  filterMap_commentRows (fun _ _ => rfl) level description

@[simp] theorem filterMap_stripped?_leadingRows (level : Nat) (description? : Option String) :
    (leadingRows level description?).filterMap Row.stripped? = [] :=
  filterMap_leadingRows (fun _ _ => rfl) level description?

theorem EnumMember.rows_undescribed (isLast : Bool) (m : EnumMember) :
    m.undescribed.rows s isLast = (m.rows s isLast).filterMap Row.stripped? := by
  rw [rows, rows, List.filterMap_append, filterMap_stripped?_leadingRows]
  rfl

theorem enumRows_undescribed (ms : List EnumMember) :
    enumRows s (ms.map EnumMember.undescribed) = (enumRows s ms).filterMap Row.stripped? := by
  induction ms with
  | nil => rfl
  | cons m ms ih =>
    rw [List.map_cons, enumRows, enumRows, List.filterMap_append, ih, List.isEmpty_map,
      EnumMember.rows_undescribed]

theorem Property.rows_undescribed (x : Property) :
    x.undescribed.rows s = (x.rows s).filterMap Row.stripped? := by
  rw [rows, rows, List.filterMap_append, filterMap_stripped?_leadingRows]
  rfl

namespace Shape

theorem rows_undescribed (lead : String) (x : Shape) :
    x.undescribed.rows s lead = ((x.rows s lead).1.filterMap Row.stripped?, (x.rows s lead).2) := by
  have hentries : x.undescribed.entries s = x.entries s := rfl
  have hintersected : x.undescribed.intersected s = x.intersected s := rfl
  have hproperties : x.undescribed.properties.flatMap (Property.rows s)
      = (x.properties.flatMap (Property.rows s)).filterMap Row.stripped? := by
    simp [undescribed, List.flatMap_map, List.filterMap_flatMap, Property.rows_undescribed]
  have hempty : x.undescribed.properties.isEmpty = x.properties.isEmpty := List.isEmpty_map
  rw [rows, rows, hentries, hintersected, hempty, hproperties]
  split
  · rfl
  · simp [Row.stripped?, Function.comp_def]

theorem furtherRows_undescribed (lead : String) (xs : List Shape) :
    furtherRows s lead (xs.map undescribed)
      = ((furtherRows s lead xs).1.filterMap Row.stripped?, (furtherRows s lead xs).2) := by
  induction xs generalizing lead with
  | nil => rfl
  | cons x xs ih => simp [furtherRows, rows_undescribed, ih]

theorem unionRows_undescribed (lead : String) (xs : List Shape) :
    unionRows s lead (xs.map undescribed) = (unionRows s lead xs).filterMap Row.stripped? := by
  cases xs with
  | nil => rfl
  | cons x xs => simp [unionRows, rows_undescribed, furtherRows_undescribed, Row.stripped?]

end Shape

/-- **Without descriptions there are the same lines of code**, and no comments. -/
theorem Declaration.rows_undescribed (d : Declaration) :
    d.undescribed.rows s = (d.rows s).filterMap Row.stripped? := by
  have hbody : d.body.undescribed.rows s d.name
      = (d.body.rows s d.name).filterMap Row.stripped? := by
    cases d.body with
    | enum members =>
      cases members with
      | nil => rfl
      | cons m ms => exact congrArg _ (enumRows_undescribed (m :: ms))
    | object x => exact Shape.unionRows_undescribed _ [x]
    | union xs => exact Shape.unionRows_undescribed _ xs
  have hdescription :
      (d.description?.toList.flatMap (commentRows 0)).filterMap Row.stripped? = [] := by
    simp [List.filterMap_flatMap]
  rw [rows, rows, List.filterMap_append, hdescription, ← hbody]
  rfl

end Stripped

/-! ## Descriptions -/

/-- The descriptions in a body. -/
def Body.descriptions : Body → List String
  | .enum members => members.filterMap EnumMember.description?
  | .object x => x.properties.filterMap Property.description?
  | .union xs => xs.flatMap fun x => x.properties.filterMap Property.description?

/-- The descriptions of a declaration and of the properties or members in it. -/
def Declaration.descriptions (d : Declaration) : List String :=
  d.description?.toList ++ d.body.descriptions

/-- A description that fits behind a line is a single comment. -/
theorem commentsOf_of_isSingleLine {description : String}
    (h : Printer.isSingleLine (Text.trim description) = true) :
    commentsOf description = [Text.trim description] := by
  obtain ⟨hne, hnewline⟩ : Text.trim description ≠ "" ∧ '\n' ∉ (Text.trim description).toList := by
    simpa [Printer.isSingleLine] using h
  rw [commentsOf, Text.lines, Text.linesOfChars_of_newline_notMem hnewline (by simpa using hne)]
  simp

/-- The comments of an optional description. -/
theorem comments_leadingRows_append (level : Nat) (description? : Option String) :
    (leadingRows level description?).filterMap Row.comment? ++ (trailing? description?).toList
      = description?.toList.flatMap commentsOf := by
  cases description? with
  | none => rfl
  | some description =>
    rw [leadingRows, trailing?]
    by_cases hsingle : Printer.isSingleLine (Text.trim description) = true
    · simp [hsingle, commentsOf_of_isSingleLine]
    · simp [hsingle, commentRows, List.filterMap_map, Function.comp_def, Row.comment?]

section Comments

variable {s : Syntax}

theorem EnumMember.comments_rows (isLast : Bool) (m : EnumMember) :
    (m.rows s isLast).filterMap Row.comment? = m.description?.toList.flatMap commentsOf := by
  rw [← comments_leadingRows_append 1, rows, List.filterMap_append]
  cases trailing? m.description? <;> rfl

theorem Property.comments_rows (x : Property) :
    (x.rows s).filterMap Row.comment? = x.description?.toList.flatMap commentsOf := by
  rw [← comments_leadingRows_append 1, rows, List.filterMap_append]
  cases trailing? x.description? <;> rfl

theorem comments_enumRows (ms : List EnumMember) :
    (enumRows s ms).filterMap Row.comment?
      = (ms.filterMap EnumMember.description?).flatMap commentsOf := by
  induction ms with
  | nil => rfl
  | cons m ms ih =>
    rw [enumRows, List.filterMap_append, ih, EnumMember.comments_rows, List.filterMap_cons]
    cases m.description? <;> simp

namespace Shape

theorem comments_rows (lead : String) (x : Shape) :
    (x.rows s lead).1.filterMap Row.comment?
      = (x.properties.filterMap Property.description?).flatMap commentsOf := by
  have hproperties : (x.properties.flatMap (Property.rows s)).filterMap Row.comment?
      = (x.properties.filterMap Property.description?).flatMap commentsOf := by
    induction x.properties with
    | nil => rfl
    | cons p ps ih =>
      rw [List.flatMap_cons, List.filterMap_append, ih, Property.comments_rows,
        List.filterMap_cons]
      cases p.description? <;> simp
  rw [← hproperties, rows]
  split
  · rename_i hempty
    have hnil : x.properties = [] := by simp_all
    rw [hnil]
    rfl
  · simp [List.filterMap_cons, Row.comment?, Function.comp_def]

theorem comments_furtherRows (lead : String) (xs : List Shape) :
    (furtherRows s lead xs).1.filterMap Row.comment?
      = (xs.flatMap fun x => x.properties.filterMap Property.description?).flatMap commentsOf := by
  induction xs generalizing lead with
  | nil => rfl
  | cons x xs ih => simp [furtherRows, comments_rows, ih]

theorem comments_unionRows (lead : String) (xs : List Shape) :
    (unionRows s lead xs).filterMap Row.comment?
      = (xs.flatMap fun x => x.properties.filterMap Property.description?).flatMap commentsOf := by
  cases xs with
  | nil => rfl
  | cons x xs => simp [unionRows, comments_rows, comments_furtherRows, Row.comment?]

end Shape

/-- **The comments in a declaration** are the lines of its descriptions. -/
theorem Declaration.comments_rows (d : Declaration) :
    (d.rows s).filterMap Row.comment? = d.descriptions.flatMap commentsOf := by
  have hbody : (d.body.rows s d.name).filterMap Row.comment?
      = d.body.descriptions.flatMap commentsOf := by
    cases d.body with
    | enum members =>
      cases members with
      | nil => rfl
      | cons m ms =>
        rw [Body.rows, List.filterMap_cons_none rfl]
        exact comments_enumRows (m :: ms)
    | object x =>
      rw [Body.rows, Shape.comments_unionRows]
      simp [Body.descriptions]
    | union xs => exact Shape.comments_unionRows _ xs
  have hdescription : (d.description?.toList.flatMap (commentRows 0)).filterMap Row.comment?
      = d.description?.toList.flatMap commentsOf := by
    simp [List.filterMap_flatMap, commentRows, List.filterMap_map, Function.comp_def, Row.comment?]
  rw [rows, List.filterMap_append, hbody, hdescription, descriptions, List.flatMap_append]

end Comments

end ResponseTypes
