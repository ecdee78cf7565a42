import ResponseTypes.Proofs.Printer.Growing
import ResponseTypes.Proofs.Text.Lines

/-!
# Nothing is lost in the repair

A text in which not all characters are blank has a line that is not blank, and no such line is left
without a text when the commas and comments of the text are repaired.  So no declaration is rendered
as nothing.

## What is here

* `CodeLine.forall_mem_fold` — what holds of each line that comes out of the repair.
* `repairCommas_ne_empty` — a text with something in it.
* `Declaration.render_ne_empty` — the text of a declaration.
-/

set_option autoImplicit false

namespace ResponseTypes
namespace CodeLine

/-- There is something on a line. -/
def IsSome (x : CodeLine) : Prop :=
  x.code ≠ [] ∨ x.comment?.isSome

theorem isSome_split {marker line : List Char} (h : line ≠ []) : (split marker line).IsSome := by
  rw [split]
  split
  · exact .inl h
  · split
    · exact .inr rfl
    · exact .inl h

theorem isSome_addComma (x : CodeLine) : x.addComma.IsSome :=
  .inl (by simp [addComma])

/-- **What holds of each line** that comes out of the repair: it holds of those that were taken
apart, and of those with a comma put behind their code. -/
theorem forall_mem_fold {P : CodeLine → Prop} {marker : List Char} {lines : List (List Char)}
    (hsplit : ∀ line ∈ lines, P (split marker line))
    (hcomma : ∀ line ∈ lines, isComment marker line = false → P (split marker line).addComma) :
    ∀ x ∈ fold marker lines, P x := by
  induction lines using fold.induct marker with
  | case1 => exact fun _ hx => absurd hx List.not_mem_nil
  | case2 line => exact List.forall_mem_singleton.2 (hsplit line List.mem_cons_self)
  | case3 line next rest hfold ih =>
    have hline : isComment marker line = false := by simpa using (Bool.and_eq_true_iff.1 hfold).2
    rw [fold, if_pos hfold]
    refine List.forall_mem_cons.2 ⟨hcomma line List.mem_cons_self hline, ih ?_ ?_⟩
    · exact fun l hl => hsplit l (List.mem_cons_of_mem _ (List.mem_cons_of_mem _ hl))
    · exact fun l hl => hcomma l (List.mem_cons_of_mem _ (List.mem_cons_of_mem _ hl))
  | case4 line next rest hfold ih =>
    rw [fold, if_neg hfold]
    refine List.forall_mem_cons.2 ⟨hsplit line List.mem_cons_self, ih ?_ ?_⟩
    · exact fun l hl => hsplit l (List.mem_cons_of_mem _ hl)
    · exact fun l hl => hcomma l (List.mem_cons_of_mem _ hl)

theorem isSome_of_mem_fold {marker : List Char} {lines : List (List Char)}
    (h : ∀ l ∈ lines, l ≠ []) : ∀ x ∈ fold marker lines, x.IsSome :=
  forall_mem_fold (fun l hl => isSome_split (h l hl)) fun l _ _ => isSome_addComma (split marker l)

theorem fold_ne_nil {marker : List Char} {lines : List (List Char)} (h : lines ≠ []) :
    fold marker lines ≠ [] := by
  cases lines with
  | nil => exact absurd rfl h
  | cons line lines =>
    cases lines with
    | nil => simp [fold]
    | cons next rest =>
      rw [fold]
      split <;> simp

theorem IsSome.render_ne_nil {x : CodeLine} (h : x.IsSome) (marker : List Char) (width : Nat) :
    render marker width x ≠ [] := by
  rw [render]
  split
  · rename_i hnone
    exact h.resolve_right (by simp [hnone])
  · split <;> simp

end CodeLine

/-- **Something is left** of a text in which not all characters are blank. -/
theorem repairCommas_ne_empty {text : String} {c : Char} (hc : c ∈ text.toList)
    (hblank : Text.isBlank c = false) (marker : String) : repairCommas marker text ≠ "" := by
  obtain ⟨l, hl, hcl⟩ := Text.exists_mem_linesOfChars hc hblank
  have hlines : l ∈ (Text.linesOfChars text.toList).filter fun l => !Text.allBlank l := by
    refine List.mem_filter.2 ⟨hl, ?_⟩
    simpa [Text.allBlank] using ⟨c, hcl, hblank⟩
  have hne : ∀ l ∈ (Text.linesOfChars text.toList).filter (fun l => !Text.allBlank l), l ≠ [] := by
    rintro l hl rfl
    simpa [Text.allBlank] using List.of_mem_filter hl
  cases hrepaired : CodeLine.align marker.toList (CodeLine.fold marker.toList
      ((Text.linesOfChars text.toList).filter fun l => !Text.allBlank l)) with
  | nil =>
    have hnil := List.map_eq_nil_iff.1 hrepaired
    exact absurd hnil (CodeLine.fold_ne_nil (List.ne_nil_of_mem hlines))
  | cons first rest =>
    have hfirst : first ≠ [] := by
      have hmem : first ∈ CodeLine.align marker.toList (CodeLine.fold marker.toList
          ((Text.linesOfChars text.toList).filter fun l => !Text.allBlank l)) :=
        hrepaired ▸ List.mem_cons_self
      obtain ⟨x, hx, rfl⟩ := List.mem_map.1 hmem
      exact (CodeLine.isSome_of_mem_fold hne x hx).render_ne_nil _ _
    intro hempty
    have hchars := congrArg String.toList hempty
    simp only [repairCommas, hrepaired, List.map_cons, String.toList_intercalate,
      String.toList_ofList, String.toList_empty] at hchars
    cases rest with
    | nil => simp [hfirst] at hchars
    | cons second rest => simp [List.intercalate_cons_cons, hfirst] at hchars

/-- **No declaration is rendered as nothing.** -/
theorem Declaration.render_ne_empty (t : Target) (d : Declaration) :
    d.render t.syntaxOf ≠ "" := by
  have hpart := Printer.declarator_infix_declaration { target := t.syntaxOf } d
  have he : 'e' ∈ t.syntaxOf.declarator.toList := by cases t <;> decide
  exact repairCommas_ne_empty (hpart.subset he) (by decide) _

end ResponseTypes
