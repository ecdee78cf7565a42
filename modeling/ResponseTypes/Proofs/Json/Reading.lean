import Mathlib.Data.List.Basic
import ResponseTypes.Json.Reader
import ResponseTypes.Json.Writer

/-!
# What is written is read back

A value without faults is read back from its text.  A string is escaped so that no character of it
ends the string or breaks the grammar, and values are told apart by the character they start with,
so that neither an array nor an object is taken for an empty one.

The reader descends one step for each part of a value, and every part takes up a character at least.
So as many steps are enough as the text has characters.

Numbers are left out, since no number is written in what this development interchanges.

## What is here

* `Json.Value.IsPlain`, `Json.Items.IsPlain` and `Json.Members.IsPlain` — no faults, no numbers.
* `Json.scanString_escapedChar` and `Json.scanString_escaped` — strings.
* `Json.readValue_chars`, `Json.readItems_chars` and `Json.readMembers_chars` — values.
* `Json.read_write` — whole texts.
-/

set_option autoImplicit false

namespace ResponseTypes
namespace Json

/-! ## Plain values -/

mutual

/-- A value without faults and numbers. -/
inductive Value.IsPlain : Value → Prop where
  | null : Value.IsPlain .null
  | bool (b : Bool) : Value.IsPlain (.bool b)
  | string (s : String) : Value.IsPlain (.string (.holds s))
  | array {items : Items} (h : Items.IsPlain items) : Value.IsPlain (.array items)
  | object {members : Members} (h : Members.IsPlain members) : Value.IsPlain (.object members)

/-- The items of a closed array, all of them plain. -/
inductive Items.IsPlain : Items → Prop where
  | done : Items.IsPlain (.done .closed)
  | item {v : Value} {rest : Items} (hv : Value.IsPlain v) (h : Items.IsPlain rest) :
    Items.IsPlain (.item v rest)

/-- The members of a closed object, all of them plain. -/
inductive Members.IsPlain : Members → Prop where
  | done : Members.IsPlain (.done .closed)
  | member (key : String) {v : Value} {rest : Members} (hv : Value.IsPlain v)
      (h : Members.IsPlain rest) :
    Members.IsPlain (.member (.holds key) v rest)

end

theorem isPlain_text (s : String) : (Value.text s).IsPlain :=
  .string s

theorem isPlain_ofOption (s? : Option String) : (Value.ofOption s?).IsPlain := by
  cases s? with
  | none => exact .null
  | some s => exact .string s

theorem isPlain_ofList {vs : List Value} (h : ∀ v ∈ vs, v.IsPlain) :
    (Value.ofList vs).IsPlain := by
  refine .array ?_
  induction vs with
  | nil => exact .done
  | cons v vs ih =>
    obtain ⟨hv, hvs⟩ := List.forall_mem_cons.1 h
    exact .item hv (ih hvs)

theorem isPlain_ofFields {ms : List (String × Value)} (h : ∀ m ∈ ms, m.2.IsPlain) :
    (Value.ofFields ms).IsPlain := by
  refine .object ?_
  induction ms with
  | nil => exact .done
  | cons m ms ih =>
    obtain ⟨hm, hms⟩ := List.forall_mem_cons.1 h
    exact .member m.1 hm (ih hms)

/-! ## Strings -/

theorem hexDigit?_hexDigit : ∀ n < 16, hexDigit? (hexDigit n) = some n := by
  decide

/-- A control character is read back from its escape. -/
theorem hexUnit?_hexDigit {n : Nat} (h : n < 0x20) :
    hexUnit? '0' '0' (hexDigit (n / 16)) (hexDigit (n % 16)) = some n := by
  have hhigh := hexDigit?_hexDigit (n / 16) (by omega)
  have hlow := hexDigit?_hexDigit (n % 16) (by omega)
  have hzero : hexDigit? '0' = some 0 := by decide
  have hn : ((0 * 16 + 0) * 16 + n / 16) * 16 + n % 16 = n := by omega
  simp only [hexUnit?, hzero, hhigh, hlow, Option.bind_eq_bind, Option.bind_some, Option.pure_def,
    hn]

/-- A unit below the surrogates is a character. -/
theorem unit_toNat (x : StringScan) {c : Char} (h : c.toNat < 0x20) :
    x.unit c.toNat = x.character c := by
  rw [StringScan.unit, if_neg (by omega), if_neg (by omega), Char.ofNat_toNat]

/-- **A character is read back** from its written form. -/
theorem scanString_escapedChar (x : StringScan) (c : Char) (rest : List Char) :
    scanString x (escapedChar c ++ rest) = scanString (x.character c) rest := by
  rw [escapedChar]
  split_ifs with hquote hbackslash hb hf hn hr ht hcontrol
  · simp [scanString, escapeLetter?, hquote]
  · simp [scanString, escapeLetter?, hbackslash]
  · simp [scanString, escapeLetter?, hb]
  · simp [scanString, escapeLetter?, hf]
  · simp [scanString, escapeLetter?, hn]
  · simp [scanString, escapeLetter?, hr]
  · simp [scanString, escapeLetter?, ht]
  · simp [scanString, hexUnit?_hexDigit hcontrol, unit_toNat x hcontrol]
  · simp [scanString, hbackslash, hcontrol]

/-- **A string is read back** up to its closing quote. -/
theorem scanString_escaped (x : StringScan) (hhalf : x.hasHalf = false)
    (hleading : x.leading? = none) (cs rest : List Char) :
    scanString x (cs.flatMap escapedChar ++ '"' :: rest)
      = (.holds (String.ofList (x.reversed.reverse ++ cs)), .ok rest) := by
  induction cs generalizing x with
  | nil => simp [scanString, StringScan.finish, hhalf, hleading]
  | cons c cs ih =>
    rw [List.flatMap_cons, List.append_assoc, scanString_escapedChar,
      ih (x.character c) (by simp [StringScan.character, hhalf, hleading]) rfl,
      StringScan.character, List.reverse_cons, List.append_assoc, List.singleton_append]

theorem scanString_start (s : String) (rest : List Char) :
    scanString .start (s.toList.flatMap escapedChar ++ '"' :: rest) = (.holds s, .ok rest) := by
  rw [scanString_escaped .start rfl rfl]
  simp [StringScan.start]

/-! ## Values -/

/-- A value starts with a character that is neither blank nor a closing bracket. -/
theorem chars_eq_cons {v : Value} (h : v.IsPlain) :
    ∃ c cs, v.chars = c :: cs ∧ isSpace c = false ∧ c ≠ ']' := by
  cases h with
  | null => exact ⟨_, _, rfl, by decide, by decide⟩
  | bool b => cases b <;> exact ⟨_, _, by rw [Value.chars], by decide, by decide⟩
  | string s =>
    exact ⟨_, _, by rw [Value.chars, stringChars, List.cons_append], by decide, by decide⟩
  | array h => exact ⟨_, _, by rw [Value.chars], by decide, by decide⟩
  | object h => exact ⟨_, _, by rw [Value.chars], by decide, by decide⟩

theorem skipSpace_cons {c : Char} (h : isSpace c = false) (cs : List Char) :
    skipSpace (c :: cs) = c :: cs := by
  rw [skipSpace, List.dropWhile_cons_of_neg (by rw [h]; exact Bool.false_ne_true)]

theorem skipSpace_chars {v : Value} (h : v.IsPlain) (rest : List Char) :
    skipSpace (v.chars ++ rest) = v.chars ++ rest := by
  obtain ⟨c, cs, hchars, hspace, -⟩ := chars_eq_cons h
  rw [hchars, List.cons_append, skipSpace_cons hspace]

/-- A separator stands between items. -/
theorem chars_item_comma (v : Value) (more : Items) :
    (Items.item v more).chars [','] = ',' :: (Items.item v more).chars [] := rfl

/-- A separator stands between members, and each starts with the quote of its key. -/
theorem chars_member (key : String) (v : Value) (more : Members) (separator : List Char) :
    (Members.member (.holds key) v more).chars separator
      = separator ++ '"' :: (key.toList.flatMap escapedChar
          ++ '"' :: ':' :: (v.chars ++ more.chars [','])) := by
  simp [Members.chars, stringChars]

mutual

/-- **A value is read back** from its characters, whatever stands behind them. -/
theorem readValue_chars {v : Value} (h : v.IsPlain) (rest : List Char) {steps : Nat}
    (hsteps : v.chars.length ≤ steps) : readValue steps (v.chars ++ rest) = (v, .ok rest) := by
  -- Recursion goes into the parts of the value: they are shorter, so a step less will do for them.
  obtain ⟨steps, rfl⟩ : ∃ n, steps = n + 1 := by
    obtain ⟨c, cs, hchars, -⟩ := chars_eq_cons h
    rw [hchars, List.length_cons] at hsteps
    exact ⟨steps - 1, by omega⟩
  rw [readValue, skipSpace_chars h]
  cases h with
  | null => rfl
  | bool b => cases b <;> rfl
  | string s => simp [Value.chars, stringChars, startOf, scanString_start]
  | @array items h =>
    rw [Value.chars, List.length_cons] at hsteps
    cases h with
    | done => rfl
    | item hv hmore =>
      have hread := readItems_chars (.item hv hmore) nofun rest (Nat.le_of_succ_le_succ hsteps)
      -- What comes next is not blank and does not close the array.
      obtain ⟨c, cs, hchars, hspace, hbracket⟩ := chars_eq_cons hv
      rw [Items.chars, List.nil_append, hchars, List.cons_append, List.cons_append] at hread
      simp only [Value.chars, Items.chars, List.nil_append, hchars, List.cons_append, startOf,
        skipSpace_cons hspace, hread]
  | @object members h =>
    rw [Value.chars, List.length_cons] at hsteps
    cases h with
    | done => rfl
    | @member key v more hv hmore =>
      rw [chars_member, List.nil_append, List.length_cons] at hsteps
      have hread := readMembers_chars (.member key hv hmore) (chars_member key v more []) rest
        (show _ ≤ steps by omega)
      rw [Value.chars, chars_member]
      simp only [List.nil_append, List.cons_append, startOf, skipSpace_cons (c := '"') rfl, hread]

/-- The items of an array are read back, if there are any. -/
theorem readItems_chars {items : Items} (h : items.IsPlain) (hne : items ≠ .done .closed)
    (rest : List Char) {steps : Nat} (hsteps : (items.chars []).length ≤ steps) :
    readItems steps (items.chars [] ++ rest) = (items, .ok rest) := by
  cases h with
  | done => exact absurd rfl hne
  | item hv hmore =>
    rw [Items.chars, List.nil_append] at hsteps ⊢
    rw [List.length_append] at hsteps
    cases hmore with
    | done =>
      rw [Items.chars, List.length_singleton] at hsteps
      obtain ⟨steps, rfl⟩ : ∃ n, steps = n + 1 := ⟨steps - 1, by omega⟩
      rw [readItems, List.append_assoc, readValue_chars hv _ (by omega)]
      rfl
    | item hv' hmore' =>
      rw [chars_item_comma, List.length_cons] at hsteps
      obtain ⟨steps, rfl⟩ : ∃ n, steps = n + 1 := ⟨steps - 1, by omega⟩
      have hread := readItems_chars (.item hv' hmore') nofun rest (show _ ≤ steps by omega)
      rw [readItems, List.append_assoc, readValue_chars hv _ (by omega), chars_item_comma]
      simp only [List.cons_append, skipSpace_cons (c := ',') rfl, hread]

/-- The members of an object are read back from behind the quote that the first one starts with. -/
theorem readMembers_chars {members : Members} (h : members.IsPlain) {cs : List Char}
    (hcs : members.chars [] = '"' :: cs) (rest : List Char) {steps : Nat}
    (hsteps : cs.length ≤ steps) : readMembers steps (cs ++ rest) = (members, .ok rest) := by
  cases h with
  | done => rw [Members.chars] at hcs; cases hcs
  | member key hv hmore =>
    rw [chars_member] at hcs
    obtain rfl := (List.cons.inj hcs).2.symm
    simp only [List.length_append, List.length_cons] at hsteps
    obtain ⟨steps, rfl⟩ : ∃ n, steps = n + 1 := ⟨steps - 1, by omega⟩
    have hvalue := fun rest => readValue_chars hv rest (show _ ≤ steps by omega)
    cases hmore with
    | done =>
      simp only [readMembers, List.append_assoc, List.cons_append, scanString_start,
        skipSpace_cons (c := ':') rfl, hvalue]
      rfl
    | @member key' v' more hv' hmore' =>
      rw [chars_member, List.singleton_append, List.length_cons, List.length_cons] at hsteps
      have hread := readMembers_chars (.member key' hv' hmore') (chars_member key' v' more []) rest
        (show _ ≤ steps by omega)
      simp only [readMembers, List.append_assoc, List.cons_append, List.nil_append,
        scanString_start, skipSpace_cons (c := ':') rfl, skipSpace_cons (c := ',') rfl,
        skipSpace_cons (c := '"') rfl, hvalue, chars_member] at hread ⊢
      rw [hread]

end

/-! ## Whole texts -/

/-- **A value is read back from its text.** -/
theorem read_write {v : Value} (h : v.IsPlain) : read v.write = ⟨v, none⟩ := by
  have hread := readValue_chars h [] (show _ ≤ 2 * v.chars.length + 2 by omega)
  rw [List.append_nil] at hread
  rw [read, Value.write, String.toList_ofList, hread]
  rfl

end Json
end ResponseTypes
