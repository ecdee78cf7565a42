import ResponseTypes.Proofs.Declaration.Printing

/-!
# Programs of a printer

Whoever prints goes through a sequence of steps, in which blocks and deeper levels are well nested.
What comes out depends on a state that the steps share: on the last character, on the level, and on
whether a group has just begun.  All the same the lines come out in order.  A text that begins a
line is indented by the level on which it is printed, nothing is written on a line without a text,
and there is never more than one such line between two others.

The reason for the last is that a group begins anew with each line that is ended for its sake, so
that no second line is ended before something is printed.

## What is here

* `Printer.Program`, with `Program.run` and `Program.texts` — what is printed, and on which levels.
* `Syntax.line` — a line of the output, by the texts on it.
* `Printer.Fills` — the lines that a printer has printed; `Fills.print`, `Fills.onNewline` and
  `Fills.newlineIfNeeded` — steps, `Fills.run` — whole programs.
* `Printer.IsDisciplined` and `Printer.isDisciplined_run` — the lines of a program.
-/

set_option autoImplicit false

namespace ResponseTypes

/-! ## Lines of texts -/

/-- Texts in the order in which they are printed, each with its level. -/
abbrev LeveledTexts := List (Nat × String)

/-- A line of the output, by the texts that are printed on it: the first one is indented by its
level, and without a text the line is empty. -/
def Syntax.line (s : Syntax) : LeveledTexts → List Char
  | [] => []
  | (level, text) :: more =>
    (s.indentation level).toList ++ text.toList ++ more.flatMap fun t => t.2.toList

/-- A text that is printed: it is not empty, and stays on its line. -/
def IsPrintable (t : Nat × String) : Prop :=
  t.2 ≠ "" ∧ '\n' ∉ t.2.toList

namespace Syntax

variable {s : Syntax} {row : LeveledTexts}

/-- One more text on a line. -/
theorem line_concat (s : Syntax) (row : LeveledTexts) (level : Nat) (text : String) :
    s.line (row ++ [(level, text)])
      = s.line row ++ ((if row.isEmpty then s.indentation level else "") ++ text).toList := by
  cases row <;> simp [line]

theorem line_ne_nil (h : ∀ t ∈ row, IsPrintable t) (hne : row ≠ []) : s.line row ≠ [] := by
  obtain ⟨⟨level, text⟩, more, rfl⟩ := List.exists_cons_of_ne_nil hne
  have htext : text.toList ≠ [] := by simpa using (h _ List.mem_cons_self).1
  simp [line, htext]

theorem newline_notMem_line (hindent : '\n' ∉ s.indent.toList) (h : ∀ t ∈ row, IsPrintable t) :
    '\n' ∉ s.line row := by
  cases row with
  | nil => exact List.not_mem_nil
  | cons t more =>
    have hne : ∀ c ∈ s.indent.toList, c ≠ '\n' := fun c hc h => hindent (h ▸ hc)
    have hindentation : '\n' ∉ (s.indentation t.1).toList := fun hmem =>
      forall_mem_indentation hne t.1 _ hmem rfl
    obtain ⟨⟨-, htext⟩, hmore⟩ := List.forall_mem_cons.1 h
    simp only [line, List.mem_append, List.mem_flatMap, not_or, not_exists, not_and]
    exact ⟨⟨hindentation, htext⟩, fun u hu => (hmore u hu).2⟩

end Syntax

namespace Printer

/-! ## Programs -/

/-- A sequence of printing steps, in which blocks and deeper levels are well nested. -/
inductive Program where
  | skip
  | print (text : String)
  | onNewline (text : String)
  | newlineIfNeeded
  | block (opening closing : String) (body : Program)
  | indented (body : Program)
  | andThen (first second : Program)
deriving DecidableEq, Repr

namespace Program

/-- Runs a program on a printer. -/
def run : Program → Printer → Printer
  | .skip => id
  | .print text => fun p => p.print text
  | .onNewline text => fun p => p.onNewline text
  | .newlineIfNeeded => fun p => p.newlineIfNeeded
  | .block opening closing body => fun p => p.block opening closing body.run
  | .indented body => fun p => p.indented body.run
  | .andThen first second => fun p => second.run (first.run p)

/-- The texts of a program that starts on a level. -/
def texts (level : Nat) : Program → LeveledTexts
  | .skip => []
  | .print text => [(level, text)]
  | .onNewline text => [(level, text)]
  | .newlineIfNeeded => []
  | .block opening closing body =>
    (level, opening) :: (body.texts (level + 1) ++ [(level, closing)])
  | .indented body => body.texts (level + 1)
  | .andThen first second => first.texts level ++ second.texts level

end Program

/-! ## Rows -/

/-- A printer prints on a level, and has printed some lines of texts: the first one is not blank,
and no two blank ones stand together.  Unless a group has begun, the last one is not blank. -/
structure Fills (p : Printer) (s : Syntax) (level : Nat) (rows : List LeveledTexts) : Prop where
  target : p.target = s
  level_eq : p.level = level
  output : p.output.toList = ['\n'].intercalate (rows.map s.line)
  printable : ∀ row ∈ rows, ∀ t ∈ row, IsPrintable t
  first : rows.head? ≠ some []
  apart : rows.IsChain fun row next => row ≠ [] ∨ next ≠ []
  group : p.isGroupStart = false → ∀ row ∈ rows.getLast?, row ≠ []

/-- A line is begun where nothing has been printed on the last one. -/
theorem atLineStart_of_output {p : Printer} {s : Syntax} (hindent : '\n' ∉ s.indent.toList)
    {init : List LeveledTexts} {row : LeveledTexts}
    (houtput : p.output.toList = ['\n'].intercalate ((init ++ [row]).map s.line))
    (hrow : ∀ t ∈ row, IsPrintable t) : p.atLineStart = row.isEmpty := by
  rw [List.map_append, List.map_singleton] at houtput
  by_cases hempty : row = []
  · subst hempty
    rcases List.eq_nil_or_concat' init with rfl | ⟨init, last, rfl⟩
    · have hnil : p.output.toList = [] := houtput
      simp [atLineStart, hnil]
    · rw [Syntax.line, intercalate_concat (by simp), List.append_nil] at houtput
      simp [atLineStart, houtput]
  · have hline := Syntax.line_ne_nil (s := s) hrow hempty
    have hlast : p.output.toList.getLast? = some ((s.line row).getLast hline) := by
      rw [houtput, getLast?_intercalate_concat _ _ hline]
    have hc : (s.line row).getLast hline ≠ '\n' := fun hc =>
      Syntax.newline_notMem_line hindent hrow (hc ▸ List.getLast_mem hline)
    rw [atLineStart, hlast, List.isEmpty_eq_false_iff.2 hempty]
    exact beq_eq_false_iff_ne.2 hc

/-- A text is printed behind the texts of the last line. -/
theorem output_print {p : Printer} {s : Syntax} (hindent : '\n' ∉ s.indent.toList)
    (htarget : p.target = s) {init : List LeveledTexts} {row : LeveledTexts}
    (houtput : p.output.toList = ['\n'].intercalate ((init ++ [row]).map s.line))
    (hrow : ∀ t ∈ row, IsPrintable t) {text : String} (hne : text ≠ "") :
    (p.print text).output.toList
      = ['\n'].intercalate ((init ++ [row ++ [(p.level, text)]]).map s.line) := by
  have hindentation : p.indentation = s.indentation p.level := by
    rw [← htarget]
    rfl
  rw [print, if_neg hne]
  simp only [atLineStart_of_output hindent houtput hrow, hindentation, String.append_assoc]
  rw [String.toList_append, houtput, List.map_append, List.map_append, List.map_singleton,
    List.map_singleton, intercalate_concat_append, Syntax.line_concat]

namespace Fills

variable {p : Printer} {s : Syntax} {n : Nat} {rows : List LeveledTexts}

theorem start (s : Syntax) : Fills { target := s } s 0 [] where
  target := rfl
  level_eq := rfl
  output := rfl
  printable _ h := absurd h List.not_mem_nil
  first := nofun
  apart := .nil
  group _ _ h := nomatch h

theorem deeper (h : p.Fills s n rows) : p.deeper.Fills s (n + 1) rows :=
  { h with level_eq := congrArg (· + 1) h.level_eq }

theorem shallower (h : p.Fills s (n + 1) rows) : p.shallower.Fills s n rows :=
  { h with level_eq := by rw [Printer.shallower, h.level_eq]; rfl }

/-- A new group begins. -/
theorem beginGroup (h : p.Fills s n rows) :
    Fills { p with isGroupStart := true } s n rows :=
  { h with group := nofun }

section Steps

variable (hindent : '\n' ∉ s.indent.toList)

include hindent

/-- **A text is printed**, on the last line or as the first text of all. -/
theorem print (h : p.Fills s n rows) {text : String} (htext : IsPrintable (n, text)) :
    ∃ rows', rows'.flatten = rows.flatten ++ [(n, text)] ∧ (p.print text).Fills s n rows' := by
  have hne : text ≠ "" := htext.1
  have htarget : (p.print text).target = s := (p.continues_print text).target.trans h.target
  have hlevel : (p.print text).level = n := by
    rw [Printer.print, if_neg hne]
    exact h.level_eq
  rcases List.eq_nil_or_concat' rows with rfl | ⟨init, row, rfl⟩
  · refine ⟨[[(n, text)]], rfl, htarget, hlevel, ?_, by simpa using htext, by simp,
      .singleton _, ?_⟩
    · have houtput : p.output.toList = ['\n'].intercalate (([] ++ [[]]).map s.line) := h.output
      rw [output_print hindent h.target houtput (List.forall_mem_nil _) hne, h.level_eq]
      rfl
    · intro _ row hrow
      rw [List.getLast?_singleton, Option.mem_some_iff] at hrow
      exact hrow ▸ List.cons_ne_nil _ _
  · obtain ⟨hinit, hrow⟩ : (∀ row ∈ init, ∀ t ∈ row, IsPrintable t) ∧ ∀ t ∈ row, IsPrintable t := by
      simpa using List.forall_mem_append.1 h.printable
    refine ⟨init ++ [row ++ [(n, text)]], by simp, htarget, hlevel, ?_, ?_, ?_, ?_, ?_⟩
    · rw [output_print hindent h.target h.output hrow hne, h.level_eq]
    · refine List.forall_mem_append.2 ⟨hinit, List.forall_mem_singleton.2 ?_⟩
      exact List.forall_mem_append.2 ⟨hrow, List.forall_mem_singleton.2 htext⟩
    · cases init with
      | nil => simp
      | cons first init => exact h.first
    · obtain ⟨hchain, -, -⟩ := List.isChain_append.1 h.apart
      exact List.isChain_append.2 ⟨hchain, .singleton _, by simp⟩
    · intro _ row' hrow'
      rw [List.getLast?_concat, Option.mem_some_iff] at hrow'
      exact hrow' ▸ by simp

omit hindent in
/-- A line is ended. -/
theorem output_newline (h : p.Fills s n rows) (hrows : rows ≠ []) :
    p.newline.output.toList = ['\n'].intercalate ((rows ++ [[]]).map s.line) := by
  have houtput : p.output ≠ "" := by
    intro hempty
    obtain ⟨row, more, rfl⟩ := List.exists_cons_of_ne_nil hrows
    have hrow : row ≠ [] := fun hrow => h.first (by rw [hrow]; rfl)
    have hline := Syntax.line_ne_nil (s := s) (h.printable row List.mem_cons_self) hrow
    have hnil := h.output
    rw [hempty] at hnil
    cases more with
    | nil => exact hline (by simpa using hnil.symm)
    | cons next more => simp [List.intercalate_cons_cons] at hnil
  rw [newline, if_neg houtput, List.map_append, List.map_singleton,
    intercalate_concat (by simpa using hrows), ← h.output]
  simp [Syntax.line]

/-- **A text is printed on a line of its own.** -/
theorem onNewline (h : p.Fills s n rows) {text : String} (htext : IsPrintable (n, text)) :
    (p.onNewline text).Fills s n (rows ++ [[(n, text)]]) := by
  have hne : text ≠ "" := htext.1
  have hnewline : p.newline.target = s ∧ p.newline.level = n := by
    rw [newline]
    split <;> exact ⟨h.target, h.level_eq⟩
  have houtput : p.newline.output.toList = ['\n'].intercalate ((rows ++ [[]]).map s.line) := by
    by_cases hrows : rows = []
    · subst hrows
      have hempty : p.output = "" := by simpa using h.output
      simp [newline, hempty, Syntax.line]
    · exact h.output_newline hrows
  refine ⟨?_, ?_, ?_, ?_, ?_, ?_, ?_⟩
  · exact (p.continues_onNewline text).target.trans h.target
  · rw [Printer.onNewline, Printer.print, if_neg hne]
    exact hnewline.2
  · rw [Printer.onNewline,
      output_print hindent hnewline.1 houtput (List.forall_mem_nil _) hne, hnewline.2]
    rfl
  · exact List.forall_mem_append.2 ⟨h.printable, by simpa using htext⟩
  · cases rows with
    | nil => simp
    | cons first rows => exact h.first
  · exact List.isChain_append.2 ⟨h.apart, .singleton _, by simp⟩
  · intro _ row hrow
    rw [List.getLast?_concat, Option.mem_some_iff] at hrow
    exact hrow ▸ by simp

omit hindent in
/-- **A line is ended if need be**: the new one is blank, but the one before it is not. -/
theorem newlineIfNeeded (h : p.Fills s n rows) :
    ∃ rows', rows'.flatten = rows.flatten ∧ p.newlineIfNeeded.Fills s n rows' := by
  by_cases hgroup : p.isGroupStart = true
  · refine ⟨rows, rfl, ?_⟩
    rw [Printer.newlineIfNeeded, if_pos hgroup]
    exact h.beginGroup
  rw [Bool.not_eq_true] at hgroup
  rw [Printer.newlineIfNeeded, hgroup, if_neg Bool.false_ne_true]
  by_cases hrows : rows = []
  · refine ⟨rows, rfl, ?_⟩
    have hempty : p.output = "" := by simpa [hrows] using h.output
    rw [newline, if_pos hempty]
    exact h.beginGroup
  · refine ⟨rows ++ [[]], by simp, ?_, ?_, h.output_newline hrows, ?_, ?_, ?_, by simp⟩
    · exact p.continues_newline.target.trans h.target
    · rw [← h.level_eq, newline]
      split <;> rfl
    · exact List.forall_mem_append.2 ⟨h.printable, by simp⟩
    · obtain ⟨first, more, rfl⟩ := List.exists_cons_of_ne_nil hrows
      exact h.first
    · exact List.isChain_append.2 ⟨h.apart, .singleton _, fun row hrow _ _ =>
        .inl (h.group hgroup row hrow)⟩

/-- **What a program prints** is added to the lines, and the level is the same afterwards. -/
theorem run (h : p.Fills s n rows) (x : Program) (htexts : ∀ t ∈ x.texts n, IsPrintable t) :
    ∃ rows', rows'.flatten = rows.flatten ++ x.texts n ∧ (x.run p).Fills s n rows' := by
  induction x generalizing p n rows with
  | skip => exact ⟨rows, (List.append_nil _).symm, h⟩
  | print text => exact h.print hindent (htexts _ List.mem_cons_self)
  | onNewline text =>
    exact ⟨_, by simp [Program.texts], h.onNewline hindent (htexts _ List.mem_cons_self)⟩
  | newlineIfNeeded =>
    obtain ⟨rows', hflatten, h'⟩ := h.newlineIfNeeded
    exact ⟨rows', by rw [hflatten, Program.texts, List.append_nil], h'⟩
  | block opening closing body ih =>
    obtain ⟨hopening, hmore⟩ := List.forall_mem_cons.1 htexts
    obtain ⟨hbody, hclosing⟩ := List.forall_mem_append.1 hmore
    obtain ⟨rows₁, hflatten₁, h₁⟩ := h.print hindent hopening
    obtain ⟨rows₂, hflatten₂, h₂⟩ := ih h₁.beginGroup.deeper hbody
    refine ⟨_, ?_, h₂.shallower.onNewline hindent (hclosing _ List.mem_cons_self)⟩
    simp [hflatten₁, hflatten₂, Program.texts]
  | indented body ih =>
    obtain ⟨rows', hflatten, h'⟩ := ih h.deeper htexts
    exact ⟨rows', hflatten, h'.shallower⟩
  | andThen first second ih ih' =>
    obtain ⟨hfirst, hsecond⟩ := List.forall_mem_append.1 htexts
    obtain ⟨rows₁, hflatten₁, h₁⟩ := ih h hfirst
    obtain ⟨rows₂, hflatten₂, h₂⟩ := ih' h₁ hsecond
    exact ⟨rows₂, by rw [hflatten₂, hflatten₁, Program.texts, List.append_assoc], h₂⟩

end Steps
end Fills

/-! ## The discipline of lines -/

/-- An output shows texts line by line. -/
structure IsDisciplined (s : Syntax) (texts : LeveledTexts) (output : List Char) : Prop where
  /-- It does not start with a line break. -/
  start : output.head? ≠ some '\n'
  /-- There is at most one blank line between two others. -/
  spacing : ¬ ['\n', '\n', '\n'] <:+: output
  /-- The texts stand on the lines in order.  The first one of a line is indented by its level, and
  a line without a text is empty. -/
  lines : ∃ rows : List LeveledTexts, rows.flatten = texts ∧ output.splitOn '\n' = rows.map s.line

/-- Lines that are filled are the lines of the output. -/
theorem Fills.splitOn_eq {p : Printer} {s : Syntax} {n : Nat} {rows : List LeveledTexts}
    (hindent : '\n' ∉ s.indent.toList) (h : p.Fills s n rows) (hrows : rows ≠ []) :
    p.output.toList.splitOn '\n' = rows.map s.line := by
  rw [h.output, List.splitOn_intercalate '\n' ?_ (by simpa using hrows)]
  intro l hl
  obtain ⟨row, hrow, rfl⟩ := List.mem_map.1 hl
  exact Syntax.newline_notMem_line hindent (h.printable row hrow)

theorem Fills.isDisciplined {p : Printer} {s : Syntax} {n : Nat} {rows : List LeveledTexts}
    (hindent : '\n' ∉ s.indent.toList) (h : p.Fills s n rows) :
    IsDisciplined s rows.flatten p.output.toList := by
  by_cases hrows : rows = []
  · subst hrows
    have houtput : p.output.toList = [] := h.output
    rw [houtput]
    exact ⟨nofun, by simp, [[]], rfl, by simp [Syntax.line]⟩
  have hsplit := h.splitOn_eq hindent hrows
  refine ⟨fun hhead => ?_, fun hinfix => ?_, rows, rfl, hsplit⟩
  · -- A line break in front would make the first line a blank one.
    obtain ⟨rest, hrest⟩ := List.head?_eq_some_iff.1 hhead
    obtain ⟨row, more, rfl⟩ := List.exists_cons_of_ne_nil hrows
    rw [hrest, List.splitOn, ← List.nil_append ('\n' :: rest),
      List.splitOnP_append_cons _ _ (by simp)] at hsplit
    have hline : s.line row = [] := by simpa using (List.cons.inj hsplit).1.symm
    have hrow : row ≠ [] := fun hrow => h.first (by rw [hrow]; rfl)
    exact Syntax.line_ne_nil (h.printable row List.mem_cons_self) hrow hline
  · -- Three line breaks in a row would leave two blank lines between them.
    obtain ⟨before, after, houtput⟩ := hinfix
    have hblank : p.output.toList.splitOn '\n'
        = before.splitOn '\n' ++ [] :: [] :: after.splitOn '\n' := by
      rw [← houtput, List.append_assoc, List.splitOn]
      simp only [List.cons_append, List.nil_append]
      rw [List.splitOnP_append_cons _ _ (by simp)]
      rfl
    rw [hsplit] at hblank
    obtain ⟨init, last, rfl, -, hlast⟩ := List.map_eq_append_iff.1 hblank
    obtain ⟨row, more, rfl, hrow, hmore⟩ := List.map_eq_cons_iff.1 hlast
    obtain ⟨next, rest, rfl, hnext, -⟩ := List.map_eq_cons_iff.1 hmore
    have heq : ∀ row' ∈ [row, next], s.line row' = [] → row' = [] := fun row' hmem hline =>
      have hmem := List.mem_append_right init (List.mem_append_left rest hmem)
      by_contra fun hne => Syntax.line_ne_nil (h.printable row' hmem) hne hline
    obtain ⟨-, hpair, -⟩ := List.isChain_append_cons_cons.1 h.apart
    exact hpair.elim (· (heq row (by simp) hrow)) (· (heq next (by simp) hnext))

/-- **Printing keeps the discipline of lines.**  Whatever program a fresh printer runs, as long as
no text is empty or has a line break in it: the output does not start with a line break and never
has two blank lines together, the texts stand on its lines in order, each line indented by the level
of the first text on it, and the printer is back on its level. -/
theorem isDisciplined_run {s : Syntax} (hindent : '\n' ∉ s.indent.toList) (x : Program)
    (htexts : ∀ t ∈ x.texts 0, t.2 ≠ "" ∧ '\n' ∉ t.2.toList) :
    IsDisciplined s (x.texts 0) (x.run { target := s }).output.toList ∧
      (x.run { target := s }).level = 0 := by
  obtain ⟨rows, hflatten, h⟩ := (Fills.start s).run hindent x htexts
  rw [List.flatten_nil, List.nil_append] at hflatten
  exact ⟨hflatten ▸ h.isDisciplined hindent, h.level_eq⟩

/-- An object type with two groups of properties, the second one in parts.  Blank lines are asked
for three times, where a group begins as well, and there is one. -/
theorem isDisciplined_run_groups :
    let s := Target.flow.syntaxOf
    let x : Program := .block "type T = \x7b|" "|\x7d;"
      (.andThen (.andThen .newlineIfNeeded (.onNewline "a: string,"))
        (.andThen (.andThen .newlineIfNeeded .newlineIfNeeded)
          (.andThen (.onNewline "b: ") (.block "\x7b|" "|\x7d," (.onNewline "c: number,")))))
    let output := "type T = \x7b|\n  a: string,\n\n  b: \x7b|\n    c: number,\n  |\x7d,\n|\x7d;"
    ('\n' ∉ s.indent.toList ∧ ∀ t ∈ x.texts 0, t.2 ≠ "" ∧ '\n' ∉ t.2.toList) ∧
      (x.run { target := s }).output = output ∧ IsDisciplined s (x.texts 0) output.toList := by
  intro s x output
  have hindent : '\n' ∉ s.indent.toList := by decide
  have htexts : ∀ t ∈ x.texts 0, t.2 ≠ "" ∧ '\n' ∉ t.2.toList := by decide
  have houtput : (x.run { target := s }).output = output := by decide +kernel
  exact ⟨⟨hindent, htexts⟩, houtput, houtput ▸ (isDisciplined_run hindent x htexts).1⟩

end Printer
end ResponseTypes
