import ResponseTypes.Counting
import ResponseTypes.Error
import ResponseTypes.Selection.Basic

/-!
# Collecting fields

For a concrete object type, a selection set yields a flat list of fields: fragments that apply to
the type are opened in place, and fields that share a response key become one.  Fields of one key
must have one type; the selections made on them are put one after the other.

A use of a fragment is either *merged*, by opening the fragment, or *recorded* by name.  A fragment
that is open is not opened again inside itself: whatever it yields there, it has yielded, or is
about to yield, where it was opened.

## What is here

* `MergedField` and `MergedField.add` — fields by response key.
* `Collected`, and `Collector.collectInto`, `Collector.collect`.
-/

set_option autoImplicit false

namespace ResponseTypes

/-! ## Merged fields -/

/-- A field of a response: all selected fields of one response key. -/
structure MergedField where
  key : String
  name : String
  type : ResolvedType
  description? : Option String
  /-- The selections made on the value, if any are. -/
  set? : Option SelectionSet
  /-- The names the value is known to be among, for the name of a type. -/
  literals? : Option (List String) := none
deriving DecidableEq, Repr

namespace MergedField

/-- A field that was selected once. -/
def ofField (f : Field) (set? : Option SelectionSet) : MergedField where
  key := f.key
  name := f.name
  type := f.type
  description? := f.description?
  set? := set?

/-- Whether the field is the name of the object type. -/
def isTypename (m : MergedField) : Bool :=
  m.name == typenameField

/-- The field with more selections made on its value. -/
def absorb (m : MergedField) (set? : Option SelectionSet) : MergedField :=
  match m.set?, set? with
  | _, none => m
  | none, some t => { m with set? := some t }
  | some s, some t => { m with set? := some (s.append t) }

/-- Adds a selected field to the fields of a response.  The first field of its key decides name,
type and description; a later one of another type is a conflict. -/
def add (f : Field) (set? : Option SelectionSet) :
    List MergedField → Except GenerationError (List MergedField)
  | [] => .ok [ofField f set?]
  | m :: ms =>
    if m.key = f.key then
      if m.type = f.type then .ok (m.absorb set? :: ms)
      else .error (.fieldMergeConflict f.key m.type f.type)
    else (add f set? ms).map (m :: ·)

end MergedField

/-! ## Collecting -/

/-- What a selection set yields for an object type: its fields, and the fragments that are recorded
by name. -/
structure Collected where
  fields : List MergedField := []
  spreads : List String := []
deriving DecidableEq, Repr

/-- The collected fields with one more recorded fragment, unless it is recorded already. -/
def Collected.record (c : Collected) (fragment : String) : Collected :=
  if c.spreads.contains fragment then c else { c with spreads := c.spreads ++ [fragment] }

/-- The fragments to collect from, and whether uses of them are merged. -/
structure Collector where
  fragments : FragmentRegistry
  merges : Bool

namespace Collector

/-- A fragment applies to an object type that is among its possible types, and to an unknown one. -/
def applies (possible : List String) : Option String → Bool
  | none => true
  | some object => possible.contains object

/-- How many registered fragments are not open. -/
def unopened (x : Collector) (opened : List String) : Nat :=
  x.fragments.countP fun f => !opened.contains f.name

theorem unopened_cons_lt (x : Collector) (opened : List String) (name : String) (f : Fragment)
    (hget : x.fragments.get? name = some f) (hopen : opened.contains name = false) :
    x.unopened (name :: opened) < x.unopened opened := by
  have hname : f.name = name := by simpa using List.find?_some hget
  refine countP_lt_countP ?_ (List.mem_of_find?_eq_some hget) ?_ ?_
  · intro g h
    simp_all
  · simp [hname]
  · simp_all

theorem sizeOf_tail_lt (s : Selection) (rest : List Selection) :
    sizeOf rest < sizeOf (s :: rest) := by
  simp only [List.cons.sizeOf_spec]
  omega

theorem sizeOf_inline_lt (condition : String) (possible : List String) (set : SelectionSet)
    (rest : List Selection) :
    sizeOf set.selections < sizeOf (Selection.inline condition possible set :: rest) := by
  cases set
  simp only [List.cons.sizeOf_spec, Selection.inline.sizeOf_spec, SelectionSet.mk.sizeOf_spec]
  omega

/-- Collects a list of selections for an object type, or for an unknown one, into what has been
collected before.  `opened` are the fragments that are open. -/
def collectInto (x : Collector) (object? : Option String) (opened : List String) :
    List Selection → Collected → Except GenerationError Collected
  | [], c => .ok c
  | .leaf f :: rest, c =>
    match MergedField.add f none c.fields with
    | .ok fields => x.collectInto object? opened rest { c with fields }
    | .error e => .error e
  | .branch f set :: rest, c =>
    match MergedField.add f (some set) c.fields with
    | .ok fields => x.collectInto object? opened rest { c with fields }
    | .error e => .error e
  | .inline _ possible set :: rest, c =>
    if applies possible object? then
      match x.collectInto object? opened set.selections c with
      | .ok c => x.collectInto object? opened rest c
      | .error e => .error e
    else x.collectInto object? opened rest c
  | .spread name _ possible :: rest, c =>
    if applies possible object? then
      if x.merges then
        if _hopen : opened.contains name then x.collectInto object? opened rest c
        else
          match _hget : x.fragments.get? name with
          | none => .error (.schema (.fragmentNotFound name))
          | some f =>
            match x.collectInto object? (name :: opened) f.set.selections c with
            | .ok c => x.collectInto object? opened rest c
            | .error e => .error e
      else x.collectInto object? opened rest (c.record name)
    else x.collectInto object? opened rest c
termination_by selections => (x.unopened opened, sizeOf selections)
decreasing_by
  case _ => exact Prod.Lex.right _ (sizeOf_tail_lt _ _)
  case _ => exact Prod.Lex.right _ (sizeOf_tail_lt _ _)
  case _ => exact Prod.Lex.right _ (sizeOf_inline_lt _ _ _ _)
  case _ => exact Prod.Lex.right _ (sizeOf_tail_lt _ _)
  case _ => exact Prod.Lex.right _ (sizeOf_tail_lt _ _)
  case _ => exact Prod.Lex.right _ (sizeOf_tail_lt _ _)
  case _ => exact Prod.Lex.left _ _ (x.unopened_cons_lt opened name f _hget (by simpa using _hopen))
  case _ => exact Prod.Lex.right _ (sizeOf_tail_lt _ _)
  case _ => exact Prod.Lex.right _ (sizeOf_tail_lt _ _)
  case _ => exact Prod.Lex.right _ (sizeOf_tail_lt _ _)

/-- The fields a selection set yields for an object type; every fragment applies when that is
unknown. -/
def collect (x : Collector) (set : SelectionSet) (object? : Option String) :
    Except GenerationError Collected :=
  x.collectInto object? [] set.selections {}

end Collector
end ResponseTypes
