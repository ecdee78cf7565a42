import ResponseTypes.Proofs.Collection.Merging
import ResponseTypes.Proofs.FirstOccurrence

/-!
# What collecting comes across

Collecting does two things at once: it walks over selections, into the fragments that apply, and it
merges what it comes across.  Here the two are taken apart.  `Collector.walk` only walks, and lists
what it comes across together with the places where that stands; `Collected.meet` merges one thing.
So collecting is a walk, followed by merging what the walk has listed, one thing after the other.

A place tells apart fields that look the same.  A fragment may be opened several times on one walk,
and then a field in it is come across several times at one place.

## What is here

* `Place`, `Placed` — where selections stand.
* `Encounter`, and `Collector.walk`, which lists encounters; `Collected.meet` — merging one.
* `Collector.collectInto_eq_foldlM` — collecting merges what is listed.
-/

set_option autoImplicit false

namespace ResponseTypes

/-! ## Places -/

/-- Where a selection stands: in a fragment, or in the selection set collected from, behind so many
selections of each list that holds it. -/
structure Place where
  fragment? : Option String
  path : List Nat := []
deriving DecidableEq, Repr

namespace Place

/-- The place behind `n` selections of the list that is held at a place. -/
def below (p : Place) (n : Nat) : Place :=
  { p with path := p.path ++ [n] }

/-- A place is in a list that another place holds, or it is that place. -/
def Holds (p q : Place) : Prop :=
  p.fragment? = q.fragment? ∧ p.path <+: q.path

theorem Holds.refl (p : Place) : p.Holds p :=
  ⟨rfl, List.prefix_refl _⟩

theorem Holds.trans {p q r : Place} (h : p.Holds q) (h' : q.Holds r) : p.Holds r :=
  ⟨h.1.trans h'.1, h.2.trans h'.2⟩

theorem holds_below (p : Place) (n : Nat) : p.Holds (p.below n) :=
  ⟨rfl, List.prefix_append _ _⟩

/-- Of two places that hold a third, one holds the other. -/
theorem Holds.total {p q r : Place} (h : p.Holds r) (h' : q.Holds r) : p.Holds q ∨ q.Holds p := by
  rcases List.prefix_or_prefix_of_prefix h.2 h'.2 with hpq | hqp
  · exact .inl ⟨h.1.trans h'.1.symm, hpq⟩
  · exact .inr ⟨h'.1.trans h.1.symm, hqp⟩

/-- Places in one list do not hold each other. -/
theorem eq_of_below_holds_below {p : Place} {m n : Nat} (h : (p.below m).Holds (p.below n)) :
    m = n := by
  have hpath := h.2
  rw [below, below, List.prefix_append_right_inj] at hpath
  simpa using hpath

/-- Neither of two places holds the other. -/
def Apart (p q : Place) : Prop :=
  ¬ p.Holds q ∧ ¬ q.Holds p

end Place

/-- A selection with its place. -/
structure Placed where
  place : Place
  selection : Selection

namespace Placed

/-- The selections of a list that is held at a place, from the one behind `n` others on. -/
def locate (p : Place) : Nat → List Selection → List Placed
  | _, [] => []
  | n, s :: l => ⟨p.below n, s⟩ :: locate p (n + 1) l

/-- The selections of a set that is held at a place. -/
def within (p : Place) (set : SelectionSet) : List Placed :=
  locate p 0 set.selections

theorem map_selection_locate (p : Place) (n : Nat) (l : List Selection) :
    (locate p n l).map selection = l := by
  induction l generalizing n with
  | nil => rfl
  | cons s l ih => rw [locate, List.map_cons, ih]

@[simp] theorem map_selection_within (p : Place) (set : SelectionSet) :
    (within p set).map selection = set.selections :=
  map_selection_locate p 0 set.selections

theorem mem_locate {p : Place} {n : Nat} {l : List Selection} {t : Placed}
    (h : t ∈ locate p n l) : ∃ i, n ≤ i ∧ t.place = p.below i := by
  induction l generalizing n with
  | nil => cases h
  | cons s l ih =>
    rcases List.mem_cons.1 h with rfl | h
    · exact ⟨n, Nat.le_refl n, rfl⟩
    · obtain ⟨i, hi, hp⟩ := ih h
      exact ⟨i, by omega, hp⟩

theorem mem_within {p : Place} {set : SelectionSet} {t : Placed} (h : t ∈ within p set) :
    ∃ i, t.place = p.below i := by
  obtain ⟨i, -, hp⟩ := mem_locate h
  exact ⟨i, hp⟩

theorem pairwise_apart_locate (p : Place) (n : Nat) (l : List Selection) :
    (locate p n l).Pairwise fun s t => s.place.Apart t.place := by
  induction l generalizing n with
  | nil => exact .nil
  | cons s l ih =>
    refine .cons ?_ (ih (n + 1))
    intro t ht
    obtain ⟨i, hi, hp⟩ := mem_locate ht
    rw [hp]
    constructor
    · intro h
      have := Place.eq_of_below_holds_below h
      omega
    · intro h
      have := Place.eq_of_below_holds_below h
      omega

theorem pairwise_apart_within (p : Place) (set : SelectionSet) :
    (within p set).Pairwise fun s t => s.place.Apart t.place :=
  pairwise_apart_locate p 0 set.selections

end Placed

/-! ## Encounters -/

/-- What a walk comes across: a field, the use of a fragment that is recorded, or the use of a
fragment that is missing. -/
inductive Encounter where
  | field (place : Place) (field : Field) (set? : Option SelectionSet)
  | recorded (place : Place) (fragment : String)
  | missing (place : Place) (fragment : String)
deriving DecidableEq, Repr

namespace Encounter

/-- Where something was come across. -/
@[simp] def place : Encounter → Place
  | .field p _ _ => p
  | .recorded p _ => p
  | .missing p _ => p

/-- The response key of a field that was come across. -/
@[simp] def key? : Encounter → Option String
  | .field _ f _ => some f.key
  | _ => none

/-- The selections made on the value of a field that was come across. -/
@[simp] def set? : Encounter → Option SelectionSet
  | .field _ _ set? => set?
  | _ => none

/-- The fragment whose use is recorded. -/
@[simp] def recorded? : Encounter → Option String
  | .recorded _ name => some name
  | _ => none

/-- Whether a field of a response key was come across. -/
def hasKey (key : String) (e : Encounter) : Bool :=
  e.key? == some key

end Encounter

namespace Collector

/-- What is come across on the way through a list of selections for an object type, or for an
unknown one.  `opened` are the fragments that are open. -/
def walk (x : Collector) (object? : Option String) (opened : List String) :
    List Placed → List Encounter
  | [] => []
  | ⟨p, .leaf f⟩ :: rest => .field p f none :: x.walk object? opened rest
  | ⟨p, .branch f set⟩ :: rest => .field p f (some set) :: x.walk object? opened rest
  | ⟨p, .inline _ possible set⟩ :: rest =>
    if applies possible object? then
      x.walk object? opened (Placed.within p set) ++ x.walk object? opened rest
    else x.walk object? opened rest
  | ⟨p, .spread name _ possible⟩ :: rest =>
    if applies possible object? then
      if x.merges then
        if _hopen : opened.contains name then x.walk object? opened rest
        else
          match _hget : x.fragments.get? name with
          | none => .missing p name :: x.walk object? opened rest
          | some f =>
            x.walk object? (name :: opened) (Placed.within ⟨some name, []⟩ f.set) ++
              x.walk object? opened rest
      else .recorded p name :: x.walk object? opened rest
    else x.walk object? opened rest
termination_by todo => (x.unopened opened, sizeOf (todo.map Placed.selection))
decreasing_by
  case _ => exact Prod.Lex.right _ (sizeOf_tail_lt _ _)
  case _ => exact Prod.Lex.right _ (sizeOf_tail_lt _ _)
  case _ =>
    rw [Placed.map_selection_within]
    exact Prod.Lex.right _ (sizeOf_inline_lt _ _ _ _)
  case _ => exact Prod.Lex.right _ (sizeOf_tail_lt _ _)
  case _ => exact Prod.Lex.right _ (sizeOf_tail_lt _ _)
  case _ => exact Prod.Lex.right _ (sizeOf_tail_lt _ _)
  case _ => exact Prod.Lex.right _ (sizeOf_tail_lt _ _)
  case _ => exact Prod.Lex.left _ _ (x.unopened_cons_lt opened name f _hget (by simpa using _hopen))
  case _ => exact Prod.Lex.right _ (sizeOf_tail_lt _ _)
  case _ => exact Prod.Lex.right _ (sizeOf_tail_lt _ _)
  case _ => exact Prod.Lex.right _ (sizeOf_tail_lt _ _)

/-- What collecting from a selection set comes across. -/
def encounters (x : Collector) (set : SelectionSet) (object? : Option String) : List Encounter :=
  x.walk object? [] (Placed.within ⟨none, []⟩ set)

end Collector

/-- What has been collected, with one more thing merged into it. -/
def Collected.meet (c : Collected) : Encounter → Except GenerationError Collected
  | .field _ f set? =>
    match MergedField.add f set? c.fields with
    | .ok fields => .ok { c with fields }
    | .error e => .error e
  | .recorded _ name => .ok (c.record name)
  | .missing _ name => .error (.schema (.fragmentNotFound name))

/-! ## Uses of fragments -/

namespace Collector

section Spreads

variable {x : Collector} {object? : Option String} {opened : List String} {name : String}
  {possible : List String} (condition : String)

theorem collectInto_missing (rest : List Selection) (c : Collected)
    (happlies : applies possible object? = true) (hmerges : x.merges = true)
    (hopen : opened.contains name = false) (hget : x.fragments.get? name = none) :
    x.collectInto object? opened (.spread name condition possible :: rest) c
      = .error (.schema (.fragmentNotFound name)) := by
  rw [collectInto, if_pos happlies, if_pos hmerges, dif_neg (by simpa using hopen)]
  split
  · rfl
  · rename_i f hf
    cases hget.symm.trans hf

theorem collectInto_opening {f : Fragment} (rest : List Selection) (c : Collected)
    (happlies : applies possible object? = true) (hmerges : x.merges = true)
    (hopen : opened.contains name = false) (hget : x.fragments.get? name = some f) :
    x.collectInto object? opened (.spread name condition possible :: rest) c
      = match x.collectInto object? (name :: opened) f.set.selections c with
        | .ok c => x.collectInto object? opened rest c
        | .error e => .error e := by
  rw [collectInto, if_pos happlies, if_pos hmerges, dif_neg (by simpa using hopen)]
  split
  · rename_i hf
    cases hget.symm.trans hf
  · rename_i g hg
    obtain rfl : f = g := Option.some.inj (hget.symm.trans hg)
    rfl

theorem walk_missing (p : Place) (rest : List Placed)
    (happlies : applies possible object? = true) (hmerges : x.merges = true)
    (hopen : opened.contains name = false) (hget : x.fragments.get? name = none) :
    x.walk object? opened (⟨p, .spread name condition possible⟩ :: rest)
      = .missing p name :: x.walk object? opened rest := by
  rw [walk, if_pos happlies, if_pos hmerges, dif_neg (by simpa using hopen)]
  split
  · rfl
  · rename_i f hf
    cases hget.symm.trans hf

theorem walk_opening {f : Fragment} (p : Place) (rest : List Placed)
    (happlies : applies possible object? = true) (hmerges : x.merges = true)
    (hopen : opened.contains name = false) (hget : x.fragments.get? name = some f) :
    x.walk object? opened (⟨p, .spread name condition possible⟩ :: rest)
      = x.walk object? (name :: opened) (Placed.within ⟨some name, []⟩ f.set) ++
          x.walk object? opened rest := by
  rw [walk, if_pos happlies, if_pos hmerges, dif_neg (by simpa using hopen)]
  split
  · rename_i hf
    cases hget.symm.trans hf
  · rename_i g hg
    obtain rfl : f = g := Option.some.inj (hget.symm.trans hg)
    rfl

end Spreads

/-! ## Collecting is walking and merging -/

/-- **Collecting merges what a walk comes across**, one thing after the other. -/
theorem collectInto_eq_foldlM (x : Collector) (object? : Option String) (opened : List String)
    (todo : List Placed) (c : Collected) :
    x.collectInto object? opened (todo.map Placed.selection) c
      = (x.walk object? opened todo).foldlM Collected.meet c := by
  induction opened, todo using walk.induct x object? generalizing c with
  | case1 opened => simp [collectInto, walk, pure, Except.pure]
  | case2 opened p f rest ih =>
    rw [List.map_cons, collectInto, walk, List.foldlM_cons, Collected.meet]
    cases MergedField.add f none c.fields with
    | ok fields => exact ih _
    | error e => rfl
  | case3 opened p f set rest ih =>
    rw [List.map_cons, collectInto, walk, List.foldlM_cons, Collected.meet]
    cases MergedField.add f (some set) c.fields with
    | ok fields => exact ih _
    | error e => rfl
  | case4 opened p condition possible set rest happlies ihset ih =>
    rw [List.map_cons, collectInto, if_pos happlies, walk, if_pos happlies, List.foldlM_append,
      ← ihset, Placed.map_selection_within]
    cases x.collectInto object? opened set.selections c with
    | ok c => exact ih c
    | error e => rfl
  | case5 opened p condition possible set rest happlies ih =>
    rw [List.map_cons, collectInto, if_neg happlies, walk, if_neg happlies]
    exact ih c
  | case6 opened p name condition possible rest happlies hmerges hopen ih =>
    rw [List.map_cons, collectInto, if_pos happlies, if_pos hmerges, dif_pos hopen, walk,
      if_pos happlies, if_pos hmerges, dif_pos hopen]
    exact ih c
  | case7 opened p name condition possible rest happlies hmerges hopen hget ih =>
    have hopen : opened.contains name = false := by simpa using hopen
    rw [List.map_cons, collectInto_missing _ _ _ happlies hmerges hopen hget,
      walk_missing _ _ _ happlies hmerges hopen hget, List.foldlM_cons, Collected.meet]
    rfl
  | case8 opened p name condition possible rest happlies hmerges hopen f hget ihbody ih =>
    have hopen : opened.contains name = false := by simpa using hopen
    rw [List.map_cons, collectInto_opening _ _ _ happlies hmerges hopen hget,
      walk_opening _ _ _ happlies hmerges hopen hget, List.foldlM_append, ← ihbody,
      Placed.map_selection_within]
    cases x.collectInto object? (name :: opened) f.set.selections c with
    | ok c => exact ih c
    | error e => rfl
  | case9 opened p name condition possible rest happlies hmerges ih =>
    rw [List.map_cons, collectInto, if_pos happlies, if_neg hmerges, walk, if_pos happlies,
      if_neg hmerges, List.foldlM_cons, Collected.meet]
    exact ih _
  | case10 opened p name condition possible rest happlies ih =>
    rw [List.map_cons, collectInto, if_neg happlies, walk, if_neg happlies]
    exact ih c

theorem collect_eq_foldlM (x : Collector) (set : SelectionSet) (object? : Option String) :
    x.collect set object? = (x.encounters set object?).foldlM Collected.meet {} := by
  rw [collect, encounters, ← collectInto_eq_foldlM, Placed.map_selection_within]

end Collector
end ResponseTypes
