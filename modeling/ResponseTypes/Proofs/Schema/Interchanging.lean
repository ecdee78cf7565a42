import ResponseTypes.Proofs.Json.Decoding
import ResponseTypes.Proofs.Json.Reading
import ResponseTypes.Proofs.Schema.Indexing
import ResponseTypes.Proofs.TypeRef.Spelling

/-!
# Schemas are read back

A schema that has been read can be written and read again, and comes out as it was.  In its text
each definition is found under its tag and each field of a record under its name, so all that could
get lost is a type reference: the text of one is not always read back.  But a schema that was read
holds references that were read themselves, and these are.

What is read the second time has all the definitions, the built-in scalars among them, so that
nothing is added to it.

## What is here

* `TypeRef.IsReadable` — references that are read back; `TypeDefinition.references`.
* `TypeDefinition.isReadable_of_decoder` — what a definition refers to, when it was decoded.
* `TypeDefinition.decoder_toJson` and `Schema.decoder_toJson` — what is written is decoded.
* `Schema.parse_write` — what is read, written and read again.
-/

set_option autoImplicit false

namespace ResponseTypes

open Json (Value Decoder Slot)

/-! ## Type references -/

namespace TypeRef

/-- A reference is read back from its text. -/
def IsReadable (t : TypeRef) : Prop :=
  parse t.display = .ok t

/-- **References that have been read** are read back. -/
theorem isReadable_of_parse {s : String} {t : TypeRef} (h : parse s = .ok t) : t.IsReadable := by
  obtain ⟨-, hwrapped, hheart, -⟩ := spec_of_parseChars h
  exact parseChars_display_mark hwrapped hheart false nofun

theorem isReadable_of_decoder {v : Value} {t : TypeRef} (h : decoder v = .ok t) :
    t.IsReadable := by
  obtain ⟨s, -, h⟩ := bind_eq_ok_iff.1 h
  split at h
  · rename_i t' ht'
    cases h
    exact isReadable_of_parse ht'
  · cases h

theorem decoder_display {t : TypeRef} (h : t.IsReadable) : decoder (.text t.display) = .ok t := by
  rw [IsReadable] at h
  simp [decoder, bind, Except.bind, h, pure, Except.pure]

end TypeRef

/-! ## Values that are written -/

/-- A value that can be written and decoded: it has no faults, and does not nest too deeply. -/
structure Json.Value.IsWritable (levels : Nat) (v : Value) : Prop where
  plain : v.IsPlain
  sound : v.sound levels = .ok ()

namespace Json

theorem isWritable_text (levels : Nat) (s : String) : (Value.text s).IsWritable levels :=
  ⟨isPlain_text s, sound_text levels s⟩

theorem isWritable_ofOption (levels : Nat) (s? : Option String) :
    (Value.ofOption s?).IsWritable levels :=
  ⟨isPlain_ofOption s?, sound_ofOption levels s?⟩

theorem isWritable_ofList {levels : Nat} {α : Type} {f : α → Value}
    (h : ∀ a, (f a).IsWritable levels) (as : List α) :
    (Value.ofList (as.map f)).IsWritable (levels + 1) :=
  ⟨isPlain_ofList (List.forall_mem_map.2 fun a _ => (h a).plain),
    sound_ofList (List.forall_mem_map.2 fun a _ => (h a).sound)⟩

theorem isWritable_ofFields {levels : Nat} {ms : List (String × Value)}
    (h : ∀ m ∈ ms, m.2.IsWritable levels) : (Value.ofFields ms).IsWritable (levels + 1) :=
  ⟨isPlain_ofFields fun m hm => (h m hm).plain, sound_ofFields_iff.2 fun m hm => (h m hm).sound⟩

end Json

open Json (isWritable_text isWritable_ofOption isWritable_ofList isWritable_ofFields)

/-! ## Parts of definitions -/

section Typed

variable {σ : Type} {label last : String} {blank : σ} {setName : String → σ → σ}
  {setType : TypeRef → σ → σ} {setDescription setLast : Option String → σ → σ}

/-- The fields of a record with a name, a type and two texts that may be left out: a field of an
object or an interface, or one of an input object. -/
def typedSlots (last : String) (setName : String → σ → σ) (setType : TypeRef → σ → σ)
    (setDescription setLast : Option String → σ → σ) : List (Slot σ) :=
  [.required "name" .string setName, .required "type" TypeRef.decoder setType,
    .optional "description" (.option .string) setDescription,
    .optional last (.option .string) setLast]

/-- The type of such a record can be read. -/
theorem isReadable_of_typed (type : σ → TypeRef) {v : Value} {d : σ}
    (h : Json.record label true (typedSlots last setName setType setDescription setLast) blank v
      = .ok d)
    (hnodup : ((typedSlots last setName setType setDescription setLast).map Slot.name).Nodup)
    (hname : ∀ a x, type (setName a x) = type x) (htype : ∀ a x, type (setType a x) = a)
    (hdescription : ∀ a x, type (setDescription a x) = type x)
    (hlast : ∀ a x, type (setLast a x) = type x) : (type d).IsReadable := by
  have hfills : (Slot.required "type" TypeRef.decoder setType).Fills type TypeRef.decoder :=
    Slot.fills_of_store rfl htype
  refine Json.record_ensures_part type TypeRef.decoder
    (fun _ _ => TypeRef.isReadable_of_decoder) ?_ hnodup
    (.inr ⟨_, List.mem_cons_of_mem _ List.mem_cons_self, rfl, hfills⟩) h
  simp only [typedSlots, List.forall_mem_cons, List.not_mem_nil, false_imp_iff, implies_true,
    and_true]
  exact ⟨.inl (Slot.leaves_of_store rfl hname), .inr hfills,
    .inl (Slot.leaves_of_store rfl hdescription), .inl (Slot.leaves_of_store rfl hlast)⟩

/-- **Such a record is decoded** field by field, if its type can be read. -/
theorem record_typed
    (hnodup : ((typedSlots last setName setType setDescription setLast).map Slot.name).Nodup)
    {type : TypeRef} (h : type.IsReadable) (name : String) (description? last? : Option String) :
    Json.record label true (typedSlots last setName setType setDescription setLast) blank
        (.ofFields [("name", .text name), ("type", .text type.display),
          ("description", .ofOption description?), (last, .ofOption last?)])
      = .ok (setLast last? (setDescription description? (setType type (setName name blank)))) := by
  rw [Json.record_ofFields hnodup rfl]
  simp [typedSlots, TypeRef.decoder_display h, bind, Except.bind]

/-- Such records are decoded from a list. -/
theorem list_ofList_of_isReadable {decoder : Decoder σ} {toJson : σ → Value} {type : σ → TypeRef}
    (hdecoder : ∀ {d : σ}, (type d).IsReadable → decoder (toJson d) = .ok d) {ds : List σ}
    (h : ∀ t ∈ ds.map type, t.IsReadable) :
    Decoder.list decoder (.ofList (ds.map toJson)) = .ok ds :=
  Decoder.list_ofList fun _ hd => hdecoder (h _ (List.mem_map_of_mem hd))

end Typed

namespace FieldDefinition

theorem isReadable_of_decoder {v : Value} {d : FieldDefinition} (h : decoder v = .ok d) :
    d.type.IsReadable :=
  isReadable_of_typed FieldDefinition.type h (by decide) (fun _ _ => rfl) (fun _ _ => rfl)
    (fun _ _ => rfl) (fun _ _ => rfl)

theorem decoder_toJson {d : FieldDefinition} (h : d.type.IsReadable) :
    decoder d.toJson = .ok d :=
  record_typed (by decide) h d.name d.description? d.deprecation?

theorem isWritable_toJson (levels : Nat) (d : FieldDefinition) :
    d.toJson.IsWritable (levels + 1) :=
  isWritable_ofFields (by simp [isWritable_text, isWritable_ofOption])

end FieldDefinition

namespace InputField

theorem isReadable_of_decoder {v : Value} {d : InputField} (h : decoder v = .ok d) :
    d.type.IsReadable :=
  isReadable_of_typed InputField.type h (by decide) (fun _ _ => rfl) (fun _ _ => rfl)
    (fun _ _ => rfl) (fun _ _ => rfl)

theorem decoder_toJson {d : InputField} (h : d.type.IsReadable) : decoder d.toJson = .ok d :=
  record_typed (by decide) h d.name d.description? d.default?

theorem isWritable_toJson (levels : Nat) (d : InputField) : d.toJson.IsWritable (levels + 1) :=
  isWritable_ofFields (by simp [isWritable_text, isWritable_ofOption])

end InputField

namespace EnumValue

theorem decoder_toJson (d : EnumValue) : decoder d.toJson = .ok d := by
  rw [decoder, toJson, Json.record_ofFields (by decide) rfl]
  simp [bind, Except.bind]

theorem isWritable_toJson (levels : Nat) (d : EnumValue) : d.toJson.IsWritable (levels + 1) :=
  isWritable_ofFields (by simp [isWritable_text, isWritable_ofOption])

end EnumValue

/-! ## Definitions -/

namespace TypeDefinition

/-- The type references of a definition. -/
def references : TypeDefinition → List TypeRef
  | .scalar _ => []
  | .enum _ => []
  | .object d => d.fields.map FieldDefinition.type
  | .interface d => d.fields.map FieldDefinition.type
  | .union _ => []
  | .inputObject d => d.fields.map InputField.type

/-- The fields of a record that holds a list of them can be read, whatever else the record holds. -/
theorem isReadable_of_fields {σ α : Type} (fields : σ → List α) (type : α → TypeRef)
    (decoder : Decoder α) (hdecoder : ∀ v d, decoder v = .ok d → (type d).IsReadable)
    {label : String} {slots : List (Slot σ)} {blank : σ}
    (hslots : ∀ slot ∈ slots, slot.Leaves fields ∨ slot.Fills fields (.list decoder))
    (hnodup : (slots.map Slot.name).Nodup) (hblank : fields blank = []) {v : Value} {d : σ}
    (h : Json.record label true slots blank v = .ok d) :
    ∀ t ∈ (fields d).map type, t.IsReadable := by
  refine Json.record_ensures_part (Q := fun as => ∀ t ∈ as.map type, t.IsReadable) fields
    (.list decoder) (fun v as has => ?_) hslots hnodup (.inl (by simp [hblank])) h
  exact List.forall_mem_map.2 (Decoder.list_ensures hdecoder has)

theorem isReadable_of_objectDecoder {v : Value} {d : ObjectDefinition}
    (h : objectDecoder v = .ok d) : ∀ t ∈ d.fields.map FieldDefinition.type, t.IsReadable := by
  refine isReadable_of_fields ObjectDefinition.fields FieldDefinition.type FieldDefinition.decoder
    (fun _ _ => FieldDefinition.isReadable_of_decoder) ?_ (by decide) rfl h
  simp only [List.forall_mem_cons, List.not_mem_nil, false_imp_iff, implies_true, and_true]
  exact ⟨.inl (Slot.leaves_of_store rfl fun _ _ => rfl),
    .inl (Slot.leaves_of_store rfl fun _ _ => rfl), .inr (Slot.fills_of_store rfl fun _ _ => rfl),
    .inl (Slot.leaves_of_store rfl fun _ _ => rfl)⟩

theorem isReadable_of_interfaceDecoder {v : Value} {d : InterfaceDefinition}
    (h : interfaceDecoder v = .ok d) : ∀ t ∈ d.fields.map FieldDefinition.type, t.IsReadable := by
  refine isReadable_of_fields InterfaceDefinition.fields FieldDefinition.type
    FieldDefinition.decoder (fun _ _ => FieldDefinition.isReadable_of_decoder) ?_ (by decide) rfl h
  simp only [List.forall_mem_cons, List.not_mem_nil, false_imp_iff, implies_true, and_true]
  exact ⟨.inl (Slot.leaves_of_store rfl fun _ _ => rfl),
    .inl (Slot.leaves_of_store rfl fun _ _ => rfl), .inr (Slot.fills_of_store rfl fun _ _ => rfl)⟩

theorem isReadable_of_inputObjectDecoder {v : Value} {d : InputObjectDefinition}
    (h : inputObjectDecoder v = .ok d) : ∀ t ∈ d.fields.map InputField.type, t.IsReadable := by
  refine isReadable_of_fields InputObjectDefinition.fields InputField.type InputField.decoder
    (fun _ _ => InputField.isReadable_of_decoder) ?_ (by decide) rfl h
  simp only [List.forall_mem_cons, List.not_mem_nil, false_imp_iff, implies_true, and_true]
  exact ⟨.inl (Slot.leaves_of_store rfl fun _ _ => rfl),
    .inl (Slot.leaves_of_store rfl fun _ _ => rfl), .inr (Slot.fills_of_store rfl fun _ _ => rfl)⟩

/-- **The references of a decoded definition** can be read. -/
theorem isReadable_of_decoder {v : Value} {d : TypeDefinition} (h : decoder v = .ok d) :
    ∀ t ∈ d.references, t.IsReadable := by
  obtain ⟨⟨tag, content⟩, -, h⟩ := bind_eq_ok_iff.1 h
  dsimp only at h
  rw [contentDecoder.eq_def] at h
  split at h <;> obtain ⟨d, hd, rfl⟩ := map_eq_ok_iff.1 h
  case h_1 => simp [references]
  case h_2 => simp [references]
  case h_3 => exact isReadable_of_objectDecoder hd
  case h_4 => exact isReadable_of_interfaceDecoder hd
  case h_5 => simp [references]
  case h_6 => exact isReadable_of_inputObjectDecoder hd

/-- A definition nests itself, its lists and what is listed. -/
theorem isWritable_toJson (levels : Nat) (d : TypeDefinition) :
    d.toJson.IsWritable (levels + 3) := by
  cases d <;> refine isWritable_ofFields ?_ <;>
    simp [isWritable_text, isWritable_ofOption, isWritable_ofList, EnumValue.isWritable_toJson,
      FieldDefinition.isWritable_toJson, InputField.isWritable_toJson]

/-- What stands under a tag is decoded as what belongs to it. -/
theorem decoder_ofFields {d : TypeDefinition} {tag : String} {ms : List (String × Value)}
    (htext : d.toJson = .ofFields ((Json.tagField, .text tag) :: ms)) {i : Nat}
    (htag : tags.idxOf? tag = some i) (hkeys : Json.tagField ∉ ms.map Prod.fst)
    (hcontent : contentDecoder i (.ofFields ((Json.tagField, .text tag) :: ms)) = .ok d) :
    decoder d.toJson = .ok d := by
  -- A definition nests three levels, itself among them: far fewer than there may be in a schema.
  have hsound := (isWritable_toJson 122 d).sound
  rw [htext] at hsound ⊢
  have htagged : Json.taggedRecord "TypeDef" tags (Json.maxLevels - 2)
      (.ofFields ((Json.tagField, .text tag) :: ms))
        = .ok (i, .ofFields ((Json.tagField, .text tag) :: ms)) :=
    Json.taggedRecord_ofFields htag hkeys hsound
  rw [decoder, htagged]
  exact hcontent

/-- **A definition that is written is decoded**, if its references can be read. -/
theorem decoder_toJson {d : TypeDefinition} (h : ∀ t ∈ d.references, t.IsReadable) :
    decoder d.toJson = .ok d := by
  cases d with
  | scalar d =>
    refine decoder_ofFields rfl rfl (by simp [Json.tagField]) ?_
    rw [contentDecoder, scalarDecoder, Json.record_tagged (by decide) (by decide) rfl]
    simp [bind, Except.bind, Except.map]
  | enum d =>
    have hvalues := Decoder.list_ofList fun a (_ : a ∈ d.values) => EnumValue.decoder_toJson a
    refine decoder_ofFields rfl rfl (by simp [Json.tagField]) ?_
    rw [contentDecoder, enumDecoder, Json.record_tagged (by decide) (by decide) rfl]
    simp [hvalues, bind, Except.bind, Except.map]
  | object d =>
    refine decoder_ofFields rfl rfl (by simp [Json.tagField]) ?_
    rw [contentDecoder, objectDecoder, Json.record_tagged (by decide) (by decide) rfl]
    simp [list_ofList_of_isReadable FieldDefinition.decoder_toJson h, Decoder.list_ofTexts, bind,
      Except.bind, Except.map]
  | interface d =>
    refine decoder_ofFields rfl rfl (by simp [Json.tagField]) ?_
    rw [contentDecoder, interfaceDecoder, Json.record_tagged (by decide) (by decide) rfl]
    simp [list_ofList_of_isReadable FieldDefinition.decoder_toJson h, bind, Except.bind, Except.map]
  | union d =>
    refine decoder_ofFields rfl rfl (by simp [Json.tagField]) ?_
    rw [contentDecoder, unionDecoder, Json.record_tagged (by decide) (by decide) rfl]
    simp [Decoder.list_ofTexts, bind, Except.bind, Except.map]
  | inputObject d =>
    refine decoder_ofFields rfl rfl (by simp [Json.tagField]) ?_
    change (inputObjectDecoder _).map inputObject = _
    rw [inputObjectDecoder, Json.record_tagged (by decide) (by decide) rfl]
    simp [list_ofList_of_isReadable InputField.decoder_toJson h, bind, Except.bind, Except.map]

end TypeDefinition

/-! ## Schemas -/

namespace Schema

/-- The references in a schema can be read. -/
def IsReadable (s : Schema) : Prop :=
  ∀ d ∈ s.types, ∀ t ∈ d.references, t.IsReadable

theorem isReadable_of_decoder {v : Value} {s : Schema} (h : decoder v = .ok s) :
    s.IsReadable := by
  refine Json.record_ensures_part (Q := fun ds => ∀ d ∈ ds, ∀ t ∈ d.references, t.IsReadable)
    Schema.types (.list TypeDefinition.decoder)
    (fun _ _ => Decoder.list_ensures fun _ _ => TypeDefinition.isReadable_of_decoder) ?_ (by decide)
    (.inl (by simp [empty])) h
  simp only [List.forall_mem_cons, List.not_mem_nil, false_imp_iff, implies_true, and_true]
  exact ⟨.inl (Slot.leaves_of_store rfl fun _ _ => rfl),
    .inl (Slot.leaves_of_store rfl fun _ _ => rfl), .inl (Slot.leaves_of_store rfl fun _ _ => rfl),
    .inr (Slot.fills_of_store rfl fun _ _ => rfl)⟩

/-- The built-in scalars refer to nothing. -/
theorem IsReadable.defineBuiltins {s : Schema} (h : s.IsReadable) :
    s.defineBuiltins.IsReadable :=
  defineBuiltins_induction (fun s b h => by
    rw [IsReadable, types_define]
    exact List.forall_mem_append.2 ⟨h, by simp [TypeDefinition.references]⟩) h

theorem isReadable_of_decodeText {text : String} {s : Schema}
    (h : Json.decodeText decoder text = .ok s) : s.IsReadable := by
  obtain ⟨s', hs', h⟩ := bind_eq_ok_iff.1 h
  split at h
  · cases h
    exact isReadable_of_decoder hs'
  · cases h

/-- **The references in a schema that has been read** can be read again. -/
theorem isReadable_of_parse {text : String} {s : Schema} (h : parse text = .ok s) :
    s.IsReadable := by
  rw [parse] at h
  split at h
  · rename_i s' hs'
    cases h
    have hread : s'.reindex.IsReadable := show s'.IsReadable from isReadable_of_decodeText hs'
    exact hread.defineBuiltins
  · cases h

theorem isPlain_toJson (s : Schema) : s.toJson.IsPlain := by
  have htypes := isWritable_ofList (TypeDefinition.isWritable_toJson 0) s.types
  exact Json.isPlain_ofFields (by simp [Json.isPlain_text, Json.isPlain_ofOption, htypes.plain])

/-- A schema without its index, as it is decoded. -/
def unindexed (s : Schema) : Schema :=
  { s with index := [], fits := Index.fits_nil s.types }

/-- **A schema that is written is decoded**, without its index. -/
theorem decoder_toJson {s : Schema} (h : s.IsReadable) : decoder s.toJson = .ok s.unindexed := by
  have htypes := Decoder.list_ofList fun d hd => TypeDefinition.decoder_toJson (h d hd)
  rw [decoder, toJson, Json.record_ofFields (by decide) rfl]
  simp [htypes, unindexed, bind, Except.bind]

/-- **Schemas survive the interchange.**  A schema that has been read is written so that reading the
text decodes the same definitions in the same order, the built-in scalars among them, and gives the
same schema. -/
theorem parse_write {text : String} {s : Schema} (h : parse text = .ok s) :
    (∃ r, Json.decodeText decoder s.toJson.write = .ok r ∧ r.types = s.types) ∧
      parse s.toJson.write = .ok s := by
  have hsettled := (IsMade.parse h).isSettled
  have hdecode : Json.decodeText decoder s.toJson.write = .ok s.unindexed := by
    rw [Json.decodeText, Json.read_write s.isPlain_toJson, Json.Reading.decode,
      decoder_toJson (isReadable_of_parse h)]
    rfl
  refine ⟨⟨s.unindexed, hdecode, rfl⟩, ?_⟩
  have hreindex : s.unindexed.reindex = s.reindex := rfl
  rw [parse, hdecode]
  dsimp only
  rw [hreindex, hsettled.indexed.reindex_eq, hsettled.complete.defineBuiltins_eq]

/-- A schema with records as arrays, a tag behind a name, fields that are left out, blanks in a
reference, an escape and a member that belongs to no field. -/
def fleetText : String :=
  "\x7b\"types\":[[\"UNION\",\"Ship\"],\x7b\"name\":\"Query\",\"kind\":\"OBJECT\","
    ++ "\"fields\":[[\"a\",\" [Ship! ]\",\"\\u0007\"]]\x7d],\"x\":1\x7d"

/-- What is read of it. -/
def fleet : Schema :=
  defineBuiltins <| reindex <|
    { types :=
        [.union { name := "Ship" },
          .object
            { name := "Query"
              fields :=
                [{ name := "a"
                   type := .list (.nonNull (.named "Ship"))
                   description? := some "\x07" }] }] }

theorem parse_write_fleet :
    parse fleetText = .ok fleet ∧
      (∃ r, Json.decodeText decoder fleet.toJson.write = .ok r ∧ r.types = fleet.types) ∧
      parse fleet.toJson.write = .ok fleet := by
  have hread : parse fleetText = .ok fleet := by decide +kernel
  exact ⟨hread, parse_write hread⟩

end Schema

end ResponseTypes
