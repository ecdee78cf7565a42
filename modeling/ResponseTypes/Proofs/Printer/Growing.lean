import Mathlib.Data.List.Infix
import ResponseTypes.Declaration.Layout

/-!
# What is printed stays

Printing only adds to the text, in the syntax that was chosen.  So the text of a declaration holds
the words that declare it.

## What is here

* `Printer.Continues` — a printer has printed what another one has, and maybe more;
  `continues_print` and its like — every way of printing continues.
* `Printer.declarator_infix_declaration` — the words that declare something.
-/

set_option autoImplicit false

namespace ResponseTypes
namespace Printer

/-- What the first printer has printed, the second one has printed before anything else, in the same
syntax. -/
structure Continues (p q : Printer) : Prop where
  target : q.target = p.target
  output : p.output.toList <+: q.output.toList

namespace Continues

variable {p q r : Printer}

theorem refl (p : Printer) : p.Continues p :=
  ⟨rfl, List.prefix_refl _⟩

theorem trans (h : p.Continues q) (h' : q.Continues r) : p.Continues r :=
  ⟨h'.target.trans h.target, h.output.trans h'.output⟩

theorem foldl {α : Type} {f : Printer → α → Printer}
    (hf : ∀ (p : Printer) (a : α), p.Continues (f p a)) (l : List α) (p : Printer) :
    p.Continues (l.foldl f p) := by
  induction l generalizing p with
  | nil => exact refl p
  | cons a l ih => exact (hf p a).trans (ih (f p a))

end Continues

variable (p : Printer)

/-! ## Texts and lines -/

theorem continues_print (text : String) : p.Continues (p.print text) := by
  rw [print]
  split
  · exact .refl p
  · refine ⟨rfl, ?_⟩
    simp only [String.toList_append, List.append_assoc]
    exact List.prefix_append _ _

theorem continues_newline : p.Continues p.newline := by
  rw [newline]
  split
  · exact .refl p
  · refine ⟨rfl, ?_⟩
    simp only [String.toList_append]
    exact List.prefix_append _ _

theorem continues_onNewline (text : String) : p.Continues (p.onNewline text) :=
  p.continues_newline.trans (p.newline.continues_print text)

/-- A text on a line of its own is part of what is printed, and stays so. -/
theorem Continues.infix_of_onNewline {p q : Printer} {text : String}
    (h : (p.onNewline text).Continues q) : text.toList <:+: q.output.toList := by
  refine List.IsInfix.trans ?_ (List.IsPrefix.isInfix h.output)
  rw [onNewline, print]
  split
  · rename_i hempty
    simp [hempty]
  · simp only [String.toList_append]
    exact (List.suffix_append _ _).isInfix

theorem continues_deeper : p.Continues p.deeper :=
  ⟨rfl, List.prefix_refl _⟩

theorem continues_shallower : p.Continues p.shallower :=
  ⟨rfl, List.prefix_refl _⟩

section Body

variable {body : Printer → Printer} (hbody : ∀ p : Printer, p.Continues (body p))

include hbody

theorem continues_indented : p.Continues (p.indented body) :=
  (p.continues_deeper.trans (hbody p.deeper)).trans (continues_shallower _)

theorem continues_block (opening closing : String) :
    p.Continues (p.block opening closing body) := by
  have hopen : p.Continues (p.openBlock opening) :=
    ⟨(p.continues_print opening).target, (p.continues_print opening).output⟩
  refine (hopen.trans (hbody _)).trans ?_
  exact (continues_shallower _).trans (continues_onNewline _ closing)

end Body

/-! ## Declarations -/

theorem continues_commentLines (text : String) : p.Continues (p.commentLines text) :=
  .foldl (fun p _ => p.continues_onNewline _) _ p

theorem continues_leadingComment (description? : Option String) :
    p.Continues (p.leadingComment description?) := by
  rw [leadingComment]
  split
  · exact .refl p
  · split
    · exact .refl p
    · exact p.continues_commentLines _

theorem continues_trailingComment (description? : Option String) :
    p.Continues (p.trailingComment description?) := by
  rw [trailingComment]
  split
  · exact .refl p
  · split
    · exact p.continues_print _
    · exact .refl p

theorem continues_enumMembers (members : List EnumMember) :
    p.Continues (p.enumMembers members) := by
  induction members generalizing p with
  | nil => exact .refl p
  | cons m ms ih =>
    have hfirst : p.Continues
        ((p.leadingComment m.description?).onNewline ("| \"" ++ m.value ++ "\"")) :=
      (p.continues_leadingComment m.description?).trans (continues_onNewline _ _)
    rw [enumMembers]
    refine Continues.trans ?_ (ih _)
    refine Continues.trans ?_ (continues_trailingComment _ _)
    split
    · exact hfirst.trans (continues_print _ _)
    · exact hfirst

theorem continues_property (x : Property) : p.Continues (p.property x) := by
  exact ((p.continues_leadingComment x.description?).trans (continues_onNewline _ _)).trans
    ((continues_trailingComment _ x.description?).trans (continues_onNewline _ _))

theorem continues_spreadEntry (entry : String) : p.Continues (p.spreadEntry entry) :=
  (p.continues_onNewline entry).trans (continues_onNewline _ _)

theorem continues_objectBody (entries : List String) (properties : List Property) :
    p.Continues (p.objectBody entries properties) := by
  rw [objectBody]
  split
  · exact p.continues_print _
  · refine p.continues_block (fun p => ?_) _ _
    exact (Continues.foldl continues_spreadEntry entries p).trans
      (.foldl continues_property properties _)

theorem continues_shape (x : Shape) : p.Continues (p.shape x) := by
  rw [shape]
  split
  · exact p.continues_objectBody _ _
  · exact (Continues.foldl (fun p _ => p.continues_print _) _ p).trans
      (continues_objectBody _ _ _)

theorem continues_furtherShapes (xs : List Shape) : p.Continues (p.furtherShapes xs) :=
  .foldl (fun p x => (p.continues_print _).trans (continues_shape _ x)) xs p

/-- The description of a declaration is printed first. -/
theorem declaration_described (name text : String) (body : Body) (nested : List Declaration) :
    p.declaration (.mk name (some text) body nested)
      = (p.commentLines text).declaration (.mk name none body nested) := by
  rw [declaration, declaration, (p.continues_commentLines text).target]
  rfl

/-- **The words that declare something** are part of what is printed for it. -/
theorem declarator_infix_declaration (d : Declaration) :
    p.target.declarator.toList <:+: (p.declaration d).output.toList := by
  obtain ⟨name, description?, body, nested⟩ := d
  suffices h : ∀ p : Printer, p.target.declarator.toList
      <:+: (p.declaration (.mk name none body nested)).output.toList by
    cases description? with
    | none => exact h p
    | some text =>
      rw [declaration_described, ← (p.continues_commentLines text).target]
      exact h _
  intro p
  have hhead : ∀ {rest : String} {q : Printer},
      (p.onNewline (p.target.declarator ++ rest)).Continues q →
        p.target.declarator.toList <:+: q.output.toList := by
    intro rest q h
    refine List.IsInfix.trans ?_ h.infix_of_onNewline
    rw [String.toList_append]
    exact (List.prefix_append _ _).isInfix
  rw [declaration]
  simp only [Declaration.description?, Declaration.name, Declaration.body, String.append_assoc]
  cases body with
  | enum members =>
    simp only [enumBody, String.append_assoc]
    split
    · exact hhead (.refl _)
    · exact hhead (continues_indented _ fun p => p.continues_enumMembers _)
  | object x => exact hhead ((continues_shape _ x).trans (continues_print _ _))
  | union xs =>
    cases xs with
    | nil => exact hhead ((continues_print _ _).trans (continues_print _ _))
    | cons x xs =>
      exact hhead (((continues_shape _ x).trans (continues_furtherShapes _ xs)).trans
        (continues_print _ _))

end Printer
end ResponseTypes
