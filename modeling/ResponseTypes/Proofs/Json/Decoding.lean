import ResponseTypes.Json.Decoder
import ResponseTypes.Proofs.FirstOccurrence
import ResponseTypes.Proofs.Results

/-!
# Decoded records

A record can be written in two ways, and much may be left out of it or added to it.  Whatever has
been decoded, two things are known: a property that every field keeps is one of the record, and so
is a property that a required field brings about.

In the other direction, a record that is written as an object, each field under its name, is decoded
field by field.  A tag in front of the fields does not count among them.

## What is here

* `Json.Slot.Keeps`, `Json.Slot.Brings` and `Json.record_ensures` — properties of decoded records;
  `Json.record_ensures_part` — of one part of a record, and `Json.Decoder.list_ensures` — of what is
  listed.
* `Json.record_ofFields` and `Json.record_tagged` — records that are written field by field.
* `Json.sound_ofList` and `Json.sound_ofFields_iff` — depth; `Json.taggedRecord_ofFields` — tags.
-/

set_option autoImplicit false

namespace ResponseTypes
namespace Json

variable {σ α : Type}

/-! ## Properties of what is decoded -/

/-- A field keeps a property of the record, whatever is stored in it. -/
def Slot.Keeps (slot : Slot σ) (P : σ → Prop) : Prop :=
  ∀ v x y, slot.store v x = .ok y → P x → P y

/-- A field brings about a property of the record, whatever is stored in it. -/
def Slot.Brings (slot : Slot σ) (P : σ → Prop) : Prop :=
  ∀ v x y, slot.store v x = .ok y → P y

/-- A field leaves a part of the record as it is. -/
def Slot.Leaves (slot : Slot σ) (part : σ → α) : Prop :=
  ∀ v x y, slot.store v x = .ok y → part y = part x

/-- A field holds a part of the record, which is what has been decoded. -/
def Slot.Fills (slot : Slot σ) (part : σ → α) (d : Decoder α) : Prop :=
  ∀ v x y, slot.store v x = .ok y → d v = .ok (part y)

section Parts

variable {β : Type} {slot : Slot σ} {part : σ → α}

theorem Slot.leaves_of_store {d : Decoder β} {set : β → σ → σ}
    (hstore : slot.store = fun v x => (d v).map fun b => set b x)
    (hset : ∀ b x, part (set b x) = part x) : slot.Leaves part := by
  intro v x y h
  rw [hstore] at h
  obtain ⟨b, -, rfl⟩ := map_eq_ok_iff.1 h
  exact hset b x

theorem Slot.fills_of_store {d : Decoder α} {set : α → σ → σ}
    (hstore : slot.store = fun v x => (d v).map fun a => set a x)
    (hset : ∀ a x, part (set a x) = a) : slot.Fills part d := by
  intro v x y h
  rw [hstore] at h
  obtain ⟨a, ha, rfl⟩ := map_eq_ok_iff.1 h
  rw [ha, hset]

end Parts

/-- A property is there, or one of the fields that are still missing must be stored and brings it
about. -/
def Promised (P : σ → Prop) (missing : Slot σ → Prop) (x : σ) : Prop :=
  P x ∨ ∃ slot, missing slot ∧ slot.isRequired = true ∧ slot.Brings P

section Ensuring

variable {P : σ → Prop} {slots : List (Slot σ)} {x y : σ}

/-- When a field is stored, what is promised is there, or is promised of the others. -/
theorem Promised.store {missing missing' : Slot σ → Prop} (h : Promised P missing x)
    {slot : Slot σ} (hkeeps : slot.Keeps P) {v : Value} (hstore : slot.store v x = .ok y)
    (hothers : ∀ other, missing other → other ≠ slot → missing' other) : Promised P missing' y := by
  obtain h | ⟨other, hmissing, hrequired, hbrings⟩ := h
  · exact .inl (hkeeps v x y hstore h)
  · by_cases hother : other = slot
    · exact .inl ((hother ▸ hbrings) v x y hstore)
    · exact .inr ⟨other, hothers other hmissing hother, hrequired, hbrings⟩

/-- **Members are stored** one after the other, and what is promised stays so. -/
theorem promised_of_members_fill (hkeeps : ∀ slot ∈ slots, slot.Keeps P)
    (hnodup : (slots.map Slot.name).Nodup) {members : Members} {seen seen' : List String}
    (h : members.fill slots seen x = .ok (seen', y))
    (hx : Promised P (fun slot => slot ∈ slots ∧ slot.name ∉ seen) x) :
    Promised P (fun slot => slot ∈ slots ∧ slot.name ∉ seen') y := by
  fun_induction Members.fill slots seen x members with
  | case1 seen x e =>
    obtain ⟨-, -, heq⟩ := map_eq_ok_iff.1 h
    cases heq
    exact hx
  | case2 seen x key v rest ih ih' =>
    obtain ⟨key, -, h⟩ := bind_eq_ok_iff.1 h
    split at h
    · obtain ⟨-, h⟩ := then_eq_ok_iff.1 h
      exact ih h hx
    · rename_i slot hslot
      split at h
      · cases h
      · obtain ⟨x', hstore, h⟩ := bind_eq_ok_iff.1 h
        obtain ⟨hmem, hname⟩ := (find?_key_eq_some_iff hnodup).1 hslot
        refine ih' key x' h (hx.store (hkeeps slot hmem) hstore fun other hother hne => ?_)
        refine ⟨hother.1, List.not_mem_cons_of_ne_of_not_mem (fun hkey => hne ?_) hother.2⟩
        exact List.inj_on_of_nodup_map hnodup hother.1 hmem (hkey.trans hname.symm)

/-- **Items are stored** in one field after the other, and what is promised is there in the end. -/
theorem of_items_fill (hkeeps : ∀ slot ∈ slots, slot.Keeps P) {expected : String}
    {tooMany : Nat → Problem} {i : Nat} {items : Items}
    (h : items.fill expected tooMany slots i x = .ok y) (hx : Promised P (· ∈ slots) x) : P y := by
  fun_induction Items.fill expected tooMany slots i x items with
  | case1 i x e =>
    obtain ⟨-, -, rfl⟩ := map_eq_ok_iff.1 h
    exact hx.resolve_right fun ⟨_, hmem, _⟩ => absurd hmem List.not_mem_nil
  | case2 => cases h
  | case3 => cases h
  | case4 => cases h
  | case5 slot slots i x hrequired ih =>
    refine ih (fun slot hslot => hkeeps slot (List.mem_cons_of_mem _ hslot)) h ?_
    refine hx.imp_right fun ⟨other, hmem, hother, hbrings⟩ => ⟨other, ?_, hother, hbrings⟩
    exact (List.mem_cons.1 hmem).resolve_left fun heq => hrequired (heq ▸ hother)
  | case6 slot slots i x v rest ih =>
    obtain ⟨x', hstore, h⟩ := bind_eq_ok_iff.1 h
    obtain ⟨hslot, hslots⟩ := List.forall_mem_cons.1 hkeeps
    exact ih x' hslots h (hx.store hslot hstore fun _ hmem hne =>
      (List.mem_cons.1 hmem).resolve_left hne)

/-- **A decoded record** has a property that each of its fields keeps, if the record of defaults has
it or a field that must be there brings it about. -/
theorem record_ensures {name : String} {isBuffered : Bool} {blank : σ} {v : Value}
    (hkeeps : ∀ slot ∈ slots, slot.Keeps P) (hnodup : (slots.map Slot.name).Nodup)
    (hblank : Promised P (· ∈ slots) blank)
    (h : record name isBuffered slots blank v = .ok x) : P x := by
  rw [record.eq_def] at h
  split at h
  · obtain ⟨⟨seen, x'⟩, hfill, h⟩ := bind_eq_ok_iff.1 h
    have hx := promised_of_members_fill hkeeps hnodup hfill
      (hblank.imp_right fun ⟨slot, hmem, hslot⟩ => ⟨slot, ⟨hmem, List.not_mem_nil⟩, hslot⟩)
    dsimp only at h
    split at h
    · cases h
    · rename_i hmissing
      cases h
      -- A field that brings the property about would have been missed.
      refine hx.resolve_right fun ⟨slot, ⟨hmem, hseen⟩, hrequired, _⟩ => ?_
      have hfound := List.find?_eq_none.1 hmissing slot hmem
      simp [hrequired, hseen] at hfound
  · exact of_items_fill hkeeps h hblank
  · rw [mismatch] at h
    split at h <;> cases h

/-- **A part of a decoded record** has a property of all that is decoded for it, if the default has
it or the part must be there. -/
theorem record_ensures_part (part : σ → α) (d : Decoder α) {Q : α → Prop}
    (hd : ∀ v a, d v = .ok a → Q a) (hslots : ∀ slot ∈ slots, slot.Leaves part ∨ slot.Fills part d)
    (hnodup : (slots.map Slot.name).Nodup) {blank : σ}
    (hblank : Q (part blank) ∨ ∃ slot ∈ slots, slot.isRequired = true ∧ slot.Fills part d)
    {name : String} {isBuffered : Bool} {v : Value}
    (h : record name isBuffered slots blank v = .ok x) : Q (part x) := by
  refine record_ensures (P := fun x => Q (part x)) (fun slot hslot w r r' hstore hr => ?_) hnodup
    (hblank.imp_right fun ⟨slot, hslot, hrequired, hfills⟩ => ?_) h
  · rcases hslots slot hslot with hleaves | hfills
    · rwa [hleaves w r r' hstore]
    · exact hd w _ (hfills w r r' hstore)
  · exact ⟨slot, hslot, hrequired, fun w r r' hstore => hd w _ (hfills w r r' hstore)⟩

end Ensuring

/-- What is decoded of the items of an array has a property of all that is decoded. -/
theorem Decoder.list_ensures {P : α → Prop} {d : Decoder α} (hd : ∀ v a, d v = .ok a → P a)
    {v : Value} {as : List α} (h : Decoder.list d v = .ok as) : ∀ a ∈ as, P a := by
  rw [Decoder.list.eq_def] at h
  split at h
  · rename_i items
    fun_induction Items.decode d items generalizing as with
    | case1 e =>
      obtain ⟨-, -, rfl⟩ := map_eq_ok_iff.1 h
      exact fun a ha => absurd ha List.not_mem_nil
    | case2 v rest ih =>
      obtain ⟨a, ha, h⟩ := bind_eq_ok_iff.1 h
      obtain ⟨as, has, h⟩ := bind_eq_ok_iff.1 h
      cases h
      exact List.forall_mem_cons.2 ⟨hd v a ha, ih has⟩
  · rw [mismatch] at h
    split at h <;> cases h

/-! ## Values that are written -/

@[simp] theorem Decoder.string_text (s : String) : Decoder.string (.text s) = .ok s := rfl

@[simp] theorem Decoder.option_ofOption (s? : Option String) :
    Decoder.option .string (.ofOption s?) = .ok s? := by
  cases s? <;> rfl

/-- **A list is decoded item by item.** -/
theorem Decoder.list_ofList {d : Decoder α} {f : α → Value} {as : List α}
    (h : ∀ a ∈ as, d (f a) = .ok a) : Decoder.list d (.ofList (as.map f)) = .ok as := by
  rw [Value.ofList, Decoder.list]
  induction as with
  | nil => rfl
  | cons a as ih =>
    obtain ⟨ha, has⟩ := List.forall_mem_cons.1 h
    rw [List.map_cons, Items.ofList, Items.decode, ha, ih has]
    rfl

/-- A list of strings is decoded string by string. -/
theorem Decoder.list_ofTexts (ss : List String) :
    Decoder.list .string (.ofList (ss.map .text)) = .ok ss :=
  Decoder.list_ofList fun s _ => Decoder.string_text s

/-! ## Records that are written -/

/-- Stores a value in each of some fields. -/
def storeAll (fields : List (Slot σ)) (ms : List (String × Value)) (x : σ) : Except Problem σ :=
  (fields.zip ms).foldlM (fun x (f : Slot σ × String × Value) => f.1.store f.2.2 x) x

theorem storeAll_cons (slot : Slot σ) (fields : List (Slot σ)) (m : String × Value)
    (ms : List (String × Value)) (x : σ) :
    storeAll (slot :: fields) (m :: ms) x = slot.store m.2 x >>= storeAll fields ms := rfl

@[simp] theorem storeAll_nil (x : σ) : storeAll [] [] x = .ok x := rfl

@[simp] theorem storeAll_required {name : String} {d : Decoder α} {set : α → σ → σ}
    (fields : List (Slot σ)) (m : String × Value) (ms : List (String × Value)) (x : σ) :
    storeAll (.required name d set :: fields) (m :: ms) x
      = d m.2 >>= fun a => storeAll fields ms (set a x) := by
  simp only [storeAll_cons, Slot.required]
  cases d m.2 <;> rfl

@[simp] theorem storeAll_optional {name : String} {d : Decoder α} {set : α → σ → σ}
    (fields : List (Slot σ)) (m : String × Value) (ms : List (String × Value)) (x : σ) :
    storeAll (.optional name d set :: fields) (m :: ms) x
      = d m.2 >>= fun a => storeAll fields ms (set a x) := by
  simp only [storeAll_cons, Slot.optional]
  cases d m.2 <;> rfl

/-- The members of an object are stored in the fields of their names. -/
theorem fill_ofList {slots fields : List (Slot σ)} (hnodup : (slots.map Slot.name).Nodup)
    (hfields : fields.Sublist slots) {ms : List (String × Value)}
    (hms : ms.map Prod.fst = fields.map Slot.name) {seen : List String}
    (hseen : ∀ slot ∈ fields, slot.name ∉ seen) (x : σ) :
    (Members.ofList ms).fill slots seen x
      = (storeAll fields ms x).map fun y => ((fields.map Slot.name).reverse ++ seen, y) := by
  induction ms generalizing fields seen x with
  | nil =>
    rw [List.map_nil, eq_comm, List.map_eq_nil_iff] at hms
    subst hms
    rfl
  | cons m ms ih =>
    obtain ⟨slot, fields, rfl, hname, hnames⟩ := List.map_eq_cons_iff.1 hms.symm
    obtain ⟨key, v⟩ := m
    obtain rfl : slot.name = key := hname
    obtain ⟨hslot, hmore⟩ := List.forall_mem_cons.1 hseen
    have hfind := (find?_key_eq_some_iff hnodup).2 ⟨hfields.subset List.mem_cons_self, rfl⟩
    have hcontains : seen.contains slot.name = false := by simpa using hslot
    have hfresh : ∀ other ∈ fields, other.name ∉ slot.name :: seen := fun other hother =>
      have hdistinct := (List.nodup_cons.1 (hnodup.sublist (hfields.map Slot.name))).1
      List.not_mem_cons_of_ne_of_not_mem
        (fun heq => hdistinct (heq ▸ List.mem_map_of_mem hother)) (hmore other hother)
    simp only [Members.ofList, Members.fill, Leaf.decode, bind, Except.bind, hfind, hcontains,
      storeAll_cons]
    cases slot.store v x with
    | error p => rfl
    | ok x' =>
      have h := ih ((List.sublist_cons_self _ _).trans hfields) hnames.symm hfresh x'
      simp [h]

/-- **A record that is written field by field** is decoded so. -/
theorem record_ofFields {name : String} {isBuffered : Bool} {slots : List (Slot σ)} {blank : σ}
    (hnodup : (slots.map Slot.name).Nodup) {ms : List (String × Value)}
    (hms : ms.map Prod.fst = slots.map Slot.name) :
    record name isBuffered slots blank (.ofFields ms) = storeAll slots ms blank := by
  have hfill := fill_ofList hnodup (List.Sublist.refl slots) hms
    (fun _ _ => List.not_mem_nil) blank
  rw [Value.ofFields, record, hfill]
  cases storeAll slots ms blank with
  | error p => rfl
  | ok x =>
    have hall : slots.find? (fun s => s.isRequired
        && !((slots.map Slot.name).reverse ++ []).contains s.name) = none := by
      refine List.find?_eq_none.2 fun slot hslot => ?_
      simpa using fun _ => ⟨slot, hslot, rfl⟩
    simp only [Except.map, bind, Except.bind, hall]

/-- A member that belongs to no field is passed over. -/
theorem record_ofFields_cons {name : String} {isBuffered : Bool} {slots : List (Slot σ)} {blank : σ}
    {key : String} (hkey : key ∉ slots.map Slot.name) {v : Value} (hv : v.skip = .ok ())
    (ms : List (String × Value)) :
    record name isBuffered slots blank (.ofFields ((key, v) :: ms))
      = record name isBuffered slots blank (.ofFields ms) := by
  have hfind : slots.find? (fun s => s.name == key) = none :=
    List.find?_eq_none.2 fun slot hslot heq =>
      hkey (beq_iff_eq.1 heq ▸ List.mem_map_of_mem hslot)
  simp only [Value.ofFields, record, Members.ofList, Members.fill, Leaf.decode, bind, Except.bind,
    hfind, hv]

/-- A record that is written field by field behind its tag. -/
theorem record_tagged {name tag : String} {isBuffered : Bool} {slots : List (Slot σ)} {blank : σ}
    (htag : tagField ∉ slots.map Slot.name) (hnodup : (slots.map Slot.name).Nodup)
    {ms : List (String × Value)} (hms : ms.map Prod.fst = slots.map Slot.name) :
    record name isBuffered slots blank (.ofFields ((tagField, .text tag) :: ms))
      = storeAll slots ms blank := by
  rw [record_ofFields_cons htag rfl, record_ofFields hnodup hms]

/-! ## Depth and tags -/

theorem sound_text (levels : Nat) (s : String) : (Value.text s).sound levels = .ok () := by
  simp [Value.text, Value.sound, Leaf.decode, Except.map]

theorem sound_ofOption (levels : Nat) (s? : Option String) :
    (Value.ofOption s?).sound levels = .ok () := by
  cases s? with
  | none => simp [Value.ofOption, Value.sound]
  | some s => exact sound_text levels s

/-- An array nests one level more than its items. -/
theorem sound_ofList {levels : Nat} {vs : List Value} (h : ∀ v ∈ vs, v.sound levels = .ok ()) :
    (Value.ofList vs).sound (levels + 1) = .ok () := by
  rw [Value.ofList, Value.sound, if_neg (Nat.succ_ne_zero _), Nat.add_sub_cancel]
  induction vs with
  | nil => simp [Items.ofList, Items.sound, ItemsEnd.decode]
  | cons v vs ih =>
    obtain ⟨hv, hvs⟩ := List.forall_mem_cons.1 h
    rw [Items.ofList, Items.sound, hv, ih hvs]
    rfl

theorem members_sound_iff {levels : Nat} {ms : List (String × Value)} :
    (Members.ofList ms).sound levels = .ok () ↔ ∀ m ∈ ms, m.2.sound levels = .ok () := by
  induction ms with
  | nil => simp [Members.ofList, Members.sound, MembersEnd.decode]
  | cons m ms ih =>
    rw [Members.ofList, Members.sound, List.forall_mem_cons, ← ih]
    exact then_eq_ok_iff

/-- An object nests one level more than its members. -/
theorem sound_ofFields_iff {levels : Nat} {ms : List (String × Value)} :
    (Value.ofFields ms).sound (levels + 1) = .ok () ↔ ∀ m ∈ ms, m.2.sound levels = .ok () := by
  rw [Value.ofFields, Value.sound, if_neg (Nat.succ_ne_zero _), Nat.add_sub_cancel,
    members_sound_iff]

/-- **A tag in front of the other members** is found, and they stay as they are. -/
theorem taggedRecord_ofFields {name tag : String} {variants : List String} {i levels : Nat}
    (htag : variants.idxOf? tag = some i) {ms : List (String × Value)}
    (hkeys : tagField ∉ ms.map Prod.fst)
    (hsound : (Value.ofFields ((tagField, .text tag) :: ms)).sound (levels + 1) = .ok ()) :
    taggedRecord name variants (levels + 1) (.ofFields ((tagField, .text tag) :: ms))
      = .ok (i, .ofFields ((tagField, .text tag) :: ms)) := by
  have hmore : (Members.ofList ms).tag (tagOf variants false) (Value.sound levels) (some i)
      = .ok i := by
    have hms := (List.forall_mem_cons.1 (sound_ofFields_iff.1 hsound)).2
    clear hsound
    induction ms with
    | nil => rfl
    | cons m ms ih =>
      obtain ⟨hm, hms⟩ := List.forall_mem_cons.1 hms
      rw [List.map_cons, List.mem_cons, not_or] at hkeys
      simp only [Members.ofList, Members.tag, Leaf.decode, bind, Except.bind,
        if_neg (Ne.symm hkeys.1), hm, ih hkeys.2 hms]
  have hfound : tagOf variants false (.text tag) = .ok i := by
    simp [Value.text, tagOf, Leaf.decode, bind, Except.bind, htag]
  simp [taggedRecord, tagged, Value.ofFields, Members.ofList, Members.tag, Leaf.decode, bind,
    Except.bind, pure, Except.pure, hfound, hmore]

end Json
end ResponseTypes
