import ResponseTypes.Json.Decoder
import ResponseTypes.Schema.Basic

/-!
# Schemas as JSON

The interchange form of a schema: an object of the root types and the list of definitions.  Each
definition is tagged by its kind and carries its fields; type references are written as text.

## What is here

* `Schema.parse` — reads a schema, indexes it and adds the built-in scalars.
* `Schema.toJson` — the form in which a schema is written, with every field of every record.
-/

set_option autoImplicit false

namespace ResponseTypes

open Json (Decoder Slot)

/-! ## Reading -/

/-- Decodes a type reference from its text. -/
def TypeRef.decoder : Decoder TypeRef := fun v => do
  let s ← Decoder.string v
  match TypeRef.parse s with
  | .ok t => return t
  | .error e => .error (.rejected (ParseError.ofMalformed e).message)

namespace FieldDefinition

/-- Decodes a field of an object or an interface. -/
def decoder : Decoder FieldDefinition :=
  Json.record "FieldDef" true
    [.required "name" .string fun a d => { d with name := a },
      .required "type" TypeRef.decoder fun a d => { d with type := a },
      .optional "description" (.option .string) fun a d => { d with description? := a },
      .optional "deprecationReason" (.option .string) fun a d => { d with deprecation? := a }]
    { name := "", type := .named "" }

end FieldDefinition

namespace InputField

/-- Decodes a field of an input object. -/
def decoder : Decoder InputField :=
  Json.record "InputValueDef" true
    [.required "name" .string fun a d => { d with name := a },
      .required "type" TypeRef.decoder fun a d => { d with type := a },
      .optional "description" (.option .string) fun a d => { d with description? := a },
      .optional "defaultValue" (.option .string) fun a d => { d with default? := a }]
    { name := "", type := .named "" }

end InputField

namespace EnumValue

/-- Decodes a value of an enum. -/
def decoder : Decoder EnumValue :=
  Json.record "EnumValue" true
    [.required "name" .string fun a d => { d with name := a },
      .optional "description" (.option .string) fun a d => { d with description? := a },
      .optional "deprecationReason" (.option .string) fun a d => { d with deprecation? := a }]
    { name := "" }

end EnumValue

namespace TypeDefinition

/-- Decodes a scalar. -/
def scalarDecoder : Decoder ScalarDefinition :=
  Json.record "ScalarDef" true
    [.required "name" .string fun a d => { d with name := a },
      .optional "description" (.option .string) fun a d => { d with description? := a }]
    { name := "" }

/-- Decodes an enum. -/
def enumDecoder : Decoder EnumDefinition :=
  Json.record "EnumDef" true
    [.required "name" .string fun a d => { d with name := a },
      .optional "description" (.option .string) fun a d => { d with description? := a },
      .optional "values" (.list EnumValue.decoder) fun a d => { d with values := a }]
    { name := "" }

/-- Decodes an object. -/
def objectDecoder : Decoder ObjectDefinition :=
  Json.record "ObjectDef" true
    [.required "name" .string fun a d => { d with name := a },
      .optional "description" (.option .string) fun a d => { d with description? := a },
      .optional "fields" (.list FieldDefinition.decoder) fun a d => { d with fields := a },
      .optional "interfaces" (.list .string) fun a d => { d with interfaces := a }]
    { name := "" }

/-- Decodes an interface. -/
def interfaceDecoder : Decoder InterfaceDefinition :=
  Json.record "InterfaceDef" true
    [.required "name" .string fun a d => { d with name := a },
      .optional "description" (.option .string) fun a d => { d with description? := a },
      .optional "fields" (.list FieldDefinition.decoder) fun a d => { d with fields := a }]
    { name := "" }

/-- Decodes a union. -/
def unionDecoder : Decoder UnionDefinition :=
  Json.record "UnionDef" true
    [.required "name" .string fun a d => { d with name := a },
      .optional "description" (.option .string) fun a d => { d with description? := a },
      .optional "members" (.list .string) fun a d => { d with members := a }]
    { name := "" }

/-- Decodes an input object. -/
def inputObjectDecoder : Decoder InputObjectDefinition :=
  Json.record "InputObjectDef" true
    [.required "name" .string fun a d => { d with name := a },
      .optional "description" (.option .string) fun a d => { d with description? := a },
      .optional "fields" (.list InputField.decoder) fun a d => { d with fields := a }]
    { name := "" }

/-- The tags of the kinds of definitions, in the order of their indices. -/
def tags : List String :=
  ["SCALAR", "ENUM", "OBJECT", "INTERFACE", "UNION", "INPUT_OBJECT"]

/-- Decodes what belongs to the tag of an index. -/
def contentDecoder : Nat → Decoder TypeDefinition
  | 0, v => (scalarDecoder v).map .scalar
  | 1, v => (enumDecoder v).map .enum
  | 2, v => (objectDecoder v).map .object
  | 3, v => (interfaceDecoder v).map .interface
  | 4, v => (unionDecoder v).map .union
  | _, v => (inputObjectDecoder v).map .inputObject

/-- Decodes a definition.  It stands inside an array inside the schema. -/
def decoder : Decoder TypeDefinition := fun v => do
  let (tag, content) ← Json.taggedRecord "TypeDef" tags (Json.maxLevels - 2) v
  contentDecoder tag content

end TypeDefinition

namespace Schema

/-- Decodes a schema; nothing is indexed yet. -/
def decoder : Decoder Schema :=
  Json.record "Schema" false
    [.optional "queryType" .string fun a s => { s with queryType := a },
      .optional "mutationType" (.option .string) fun a s => { s with mutationType? := a },
      .optional "subscriptionType" (.option .string) fun a s => { s with subscriptionType? := a },
      .optional "types" (.list TypeDefinition.decoder) fun a s =>
        { s with types := a, index := [], fits := Index.fits_nil a }]
    empty

/-- Reads a schema from its interchange form. -/
def parse (text : String) : Except ParseError Schema :=
  match Json.decodeText decoder text with
  | .ok s => .ok s.reindex.defineBuiltins
  | .error problem => .error (.json problem)

end Schema

/-! ## Writing -/

open Json (Value)

/-- A field of an object or an interface as JSON. -/
def FieldDefinition.toJson (d : FieldDefinition) : Value :=
  .ofFields
    [("name", .text d.name), ("type", .text d.type.display),
      ("description", .ofOption d.description?), ("deprecationReason", .ofOption d.deprecation?)]

/-- A field of an input object as JSON. -/
def InputField.toJson (d : InputField) : Value :=
  .ofFields
    [("name", .text d.name), ("type", .text d.type.display),
      ("description", .ofOption d.description?), ("defaultValue", .ofOption d.default?)]

/-- A value of an enum as JSON. -/
def EnumValue.toJson (d : EnumValue) : Value :=
  .ofFields
    [("name", .text d.name), ("description", .ofOption d.description?),
      ("deprecationReason", .ofOption d.deprecation?)]

/-- A definition as JSON, tagged by its kind. -/
def TypeDefinition.toJson : TypeDefinition → Value
  | .scalar d => .ofFields
    [("kind", .text "SCALAR"), ("name", .text d.name), ("description", .ofOption d.description?)]
  | .enum d => .ofFields
    [("kind", .text "ENUM"), ("name", .text d.name), ("description", .ofOption d.description?),
      ("values", .ofList (d.values.map EnumValue.toJson))]
  | .object d => .ofFields
    [("kind", .text "OBJECT"), ("name", .text d.name), ("description", .ofOption d.description?),
      ("fields", .ofList (d.fields.map FieldDefinition.toJson)),
      ("interfaces", .ofList (d.interfaces.map Value.text))]
  | .interface d => .ofFields
    [("kind", .text "INTERFACE"), ("name", .text d.name),
      ("description", .ofOption d.description?),
      ("fields", .ofList (d.fields.map FieldDefinition.toJson))]
  | .union d => .ofFields
    [("kind", .text "UNION"), ("name", .text d.name), ("description", .ofOption d.description?),
      ("members", .ofList (d.members.map Value.text))]
  | .inputObject d => .ofFields
    [("kind", .text "INPUT_OBJECT"), ("name", .text d.name),
      ("description", .ofOption d.description?),
      ("fields", .ofList (d.fields.map InputField.toJson))]

/-- A schema as JSON. -/
def Schema.toJson (s : Schema) : Value :=
  .ofFields
    [("queryType", .text s.queryType), ("mutationType", .ofOption s.mutationType?),
      ("subscriptionType", .ofOption s.subscriptionType?),
      ("types", .ofList (s.types.map TypeDefinition.toJson))]

end ResponseTypes
