import ResponseTypes.Document.Basic
import ResponseTypes.Schema.Interchange

/-!
# Documents as JSON

The interchange form of a document: its operations and fragments, with selections tagged by their
kind.  A selection holds selections in turn, so its decoder follows the nesting of the value.

## What is here

* `SelectionNode.decoder` — selections.
* `Document.parse` — reads a document.
* `Document.toJson` — the form in which a document is written.
-/

set_option autoImplicit false

namespace ResponseTypes

open Json (Decoder Items Members Problem Slot Value)

/-! ## Selections -/

namespace SelectionNode

/-- The tags of the kinds of selections, in the order of their indices. -/
def tags : List String :=
  ["Field", "FragmentSpread", "InlineFragment"]

/-- The field that holds the selections inside a selection. -/
def selectionsField : String := "selectionSet"

/-- The fields of a selection of each kind, and whether they must be there. -/
def slots : Nat → List (String × Bool)
  | 0 => [("name", true), ("alias", false), (selectionsField, false)]
  | 1 => [("fragmentName", true)]
  | _ => [("typeCondition", false), (selectionsField, false)]

/-- The name of the record of a selection of each kind. -/
def recordName : Nat → String
  | 0 => "FieldSelectionDef"
  | 1 => "FragmentSpreadDef"
  | _ => "InlineFragmentDef"

/-- The fields of a selection that have been decoded. -/
structure Draft where
  text : String := ""
  option? : Option String := none
  selections : List SelectionNode := []

namespace Draft

/-- Stores the value of a field that holds no selections. -/
def store (x : Draft) (isOptional : Bool) (v : Value) : Except Problem Draft :=
  if isOptional then (Decoder.option Decoder.string v).map fun a => { x with option? := a }
  else (Decoder.string v).map fun a => { x with text := a }

/-- The selection of a kind that has these fields. -/
def node (x : Draft) : Nat → SelectionNode
  | 0 => .field x.text x.option? x.selections
  | 1 => .spread x.text
  | _ => .inline x.option? x.selections

end Draft

/-- The selection of an object whose fields have been decoded, if none is missing. -/
def ofSeen (tag : Nat) : List String × Draft → Except Problem SelectionNode
  | (seen, x) =>
    match (slots tag).find? fun s => s.2 && !seen.contains s.1 with
    | some s => .error (.missingField s.1)
    | none => .ok (x.node tag)

/-- The end of an array whose remaining fields are not there. -/
def ofMissing (tag i : Nat) (x : Draft) (rest : List (String × Bool)) :
    Except Problem SelectionNode :=
  match rest.findIdx? fun s => s.2 with
  | some j =>
    .error (.invalidLength (i + j)
      ("struct " ++ recordName tag ++ " with " ++ Json.counted (slots tag).length "element"))
  | none => .ok (x.node tag)

mutual

/-- Decodes a selection inside another one. -/
def ofValue : Value → Except Problem SelectionNode
  | .object members => do
    let tag ← members.tag (Json.tagOf tags true) (fun _ => .ok ()) none
    let found ← ofMembers tag [] {} members
    ofSeen tag found
  | .array (.item v rest) => do
    let tag ← Json.tagOf tags true v
    ofItems tag (slots tag) 0 {} rest
  | .array (.done e) => do
    e.decode
    .error (.missingField Json.tagField)
  | v => Json.mismatch v "internally tagged enum SelectionDef"

/-- Decodes the selections inside a selection. -/
def listOfValue : Value → Except Problem (List SelectionNode)
  | .array items => listOfItems items
  | v => Json.mismatch v "a sequence"

/-- Decodes the items of an array of selections. -/
def listOfItems : Items → Except Problem (List SelectionNode)
  | .done e => e.decode.map fun _ => []
  | .item v rest => do
    let n ← ofValue v
    let ns ← listOfItems rest
    return n :: ns

/-- Decodes the fields of a selection written as an object. -/
def ofMembers (tag : Nat) :
    List String → Draft → Members → Except Problem (List String × Draft)
  | seen, x, .done e => e.decode.map fun _ => (seen, x)
  | seen, x, .member key v rest => do
    let key ← key.decode
    match (slots tag).lookup key with
    | none =>
      v.skip
      ofMembers tag seen x rest
    | some isRequired =>
      if seen.contains key then .error (.duplicateField key)
      else if key = selectionsField then
        let selections ← listOfValue v
        ofMembers tag (key :: seen) { x with selections } rest
      else
        let x ← x.store (!isRequired) v
        ofMembers tag (key :: seen) x rest

/-- Decodes the fields of a selection written as an array. -/
def ofItems (tag : Nat) :
    List (String × Bool) → Nat → Draft → Items → Except Problem SelectionNode
  | rest, i, x, .done e => do
    e.decode
    ofMissing tag i x rest
  | [], i, _, .item _ rest =>
    .error (.invalidLength (i + rest.length + 1)
      (Json.counted (slots tag).length "element" ++ " in sequence"))
  | (name, isRequired) :: slots, i, x, .item v rest =>
    if name = selectionsField then do
      let selections ← listOfValue v
      ofItems tag slots (i + 1) { x with selections } rest
    else do
      let x ← x.store (!isRequired) v
      ofItems tag slots (i + 1) x rest

end

/-- Decodes what belongs to the tag of an index. -/
def contentDecoder (tag : Nat) : Decoder SelectionNode
  | .object members => do
    let found ← ofMembers tag [] {} members
    ofSeen tag found
  | .array items => ofItems tag (slots tag) 0 {} items
  | v => Json.mismatch v ("struct " ++ recordName tag)

/-- Decodes a selection.  It stands in the selections of an operation or a fragment, which stands in
an array inside the document. -/
def decoder : Decoder SelectionNode := fun v => do
  let (tag, content) ← Json.taggedRecord "SelectionDef" tags (Json.maxLevels - 4) v
  contentDecoder tag content

end SelectionNode

/-! ## Documents -/

/-- Decodes a variable. -/
def VariableNode.decoder : Decoder VariableNode :=
  Json.record "VariableDef" false
    [.required "name" .string fun a x => { x with name := a },
      .required "type" TypeRef.decoder fun a x => { x with type := a }]
    { name := "", type := .named "" }

/-- Decodes an operation. -/
def OperationNode.decoder : Decoder OperationNode :=
  Json.record "OperationDef" false
    [.required "name" .string fun a x => { x with name := a },
      .required "operationType" .string fun a x => { x with operationType := a },
      .optional "variables" (.list VariableNode.decoder) fun a x => { x with vars := a },
      .optional SelectionNode.selectionsField (.list SelectionNode.decoder)
        fun a x => { x with selections := a }]
    { name := "", operationType := "" }

/-- Decodes a fragment. -/
def FragmentNode.decoder : Decoder FragmentNode :=
  Json.record "FragmentDef" false
    [.required "name" .string fun a x => { x with name := a },
      .required "typeCondition" .string fun a x => { x with typeCondition := a },
      .optional SelectionNode.selectionsField (.list SelectionNode.decoder)
        fun a x => { x with selections := a }]
    { name := "", typeCondition := "" }

namespace Document

/-- Decodes a document. -/
def decoder : Decoder Document :=
  Json.record "Document" false
    [.optional "operations" (.list OperationNode.decoder) fun a x => { x with operations := a },
      .optional "fragments" (.list FragmentNode.decoder) fun a x => { x with fragments := a }]
    {}

/-- Reads a document from its interchange form. -/
def parse (text : String) : Except ParseError Document :=
  match Json.decodeText decoder text with
  | .ok d => .ok d
  | .error problem => .error (.json problem)

end Document

/-! ## Writing -/

mutual

/-- A selection as JSON, tagged by its kind. -/
def SelectionNode.toJson : SelectionNode → Value
  | .field name alias? selections => .ofFields
    [("kind", .text "Field"), ("name", .text name), ("alias", .ofOption alias?),
      (selectionsField, .ofList (listToJson selections))]
  | .spread fragment => .ofFields
    [("kind", .text "FragmentSpread"), ("fragmentName", .text fragment)]
  | .inline typeCondition? selections => .ofFields
    [("kind", .text "InlineFragment"), ("typeCondition", .ofOption typeCondition?),
      (selectionsField, .ofList (listToJson selections))]

/-- Selections as JSON. -/
def SelectionNode.listToJson : List SelectionNode → List Value
  | [] => []
  | n :: ns => n.toJson :: listToJson ns

end

/-- A variable as JSON. -/
def VariableNode.toJson (x : VariableNode) : Value :=
  .ofFields [("name", .text x.name), ("type", .text x.type.display)]

/-- An operation as JSON. -/
def OperationNode.toJson (x : OperationNode) : Value :=
  .ofFields
    [("name", .text x.name), ("operationType", .text x.operationType),
      ("variables", .ofList (x.vars.map VariableNode.toJson)),
      (SelectionNode.selectionsField, .ofList (SelectionNode.listToJson x.selections))]

/-- A fragment as JSON. -/
def FragmentNode.toJson (x : FragmentNode) : Value :=
  .ofFields
    [("name", .text x.name), ("typeCondition", .text x.typeCondition),
      (SelectionNode.selectionsField, .ofList (SelectionNode.listToJson x.selections))]

/-- A document as JSON. -/
def Document.toJson (d : Document) : Value :=
  .ofFields
    [("operations", .ofList (d.operations.map OperationNode.toJson)),
      ("fragments", .ofList (d.fragments.map FragmentNode.toJson))]

end ResponseTypes
