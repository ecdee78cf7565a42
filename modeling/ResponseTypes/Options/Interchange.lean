import ResponseTypes.Error
import ResponseTypes.Json.Decoder
import ResponseTypes.Options

/-!
# Options as JSON

The interchange form of options.  Every field may be left out.  The target is a name; it may also be
written as an object with that name as its only key, and `null` as the value.

## What is here

* `Target.decoder` — the target.
* `Options.parse` — reads options.
* `Options.toJson` — the form in which options are written.
-/

set_option autoImplicit false

namespace ResponseTypes

open Json (Decoder Problem Value)

namespace Target

/-- The names of targets, in alphabetical order. -/
def keys : List String :=
  ["flow", "ts", "typescript"]

/-- The target of a name as options write it. -/
def ofKey (key : String) : Except Problem Target :=
  if key = "flow" then .ok .flow
  else if key = "ts" ∨ key = "typescript" then .ok .typeScript
  else .error (.unknownVariant key keys)

/-- Decodes the value in the place of a variant that holds nothing. -/
def nothingDecoder : Decoder Unit
  | .null => .ok ()
  | v => Json.mismatch v "unit"

/-- Decodes a target.  Something that is neither a string nor an object is not even looked at. -/
def decoder : Decoder Target
  | .string s => do
    let key ← s.decode
    ofKey key
  | .object (.member key v rest) => do
    let key ← key.decode
    let target ← ofKey key
    nothingDecoder v
    match rest with
    | .done .closed => return target
    | .done (.cut f) => .error (.fault f)
    | _ => .error (.fault .malformed)
  | .object (.done (.cut f)) => .error (.fault f)
  | .absent f => .error (.fault f)
  | _ => .error (.fault .malformed)

end Target

namespace Options

/-- Decodes options. -/
def decoder : Decoder Options :=
  Json.record "CompilerOptions" false
    [.optional "passthroughCustomScalars" .flag fun a o => { o with passesCustomScalars := a },
      .optional "customScalarsPrefix" .string fun a o => { o with customScalarPrefix := a },
      .optional "mergeInFieldsFromFragmentSpreads" .flag fun a o => { o with mergesFragments := a },
      .optional "addTypename" .flag fun a o => { o with addsTypename := a },
      .optional "target" Target.decoder fun a o => { o with target := a }]
    {}

/-- Reads options from their interchange form. -/
def parse (text : String) : Except ParseError Options :=
  match Json.decodeText decoder text with
  | .ok o => .ok o
  | .error problem => .error (.json problem)

/-- Options as JSON. -/
def toJson (o : Options) : Value :=
  .ofFields
    [("passthroughCustomScalars", .bool o.passesCustomScalars),
      ("customScalarsPrefix", .text o.customScalarPrefix),
      ("mergeInFieldsFromFragmentSpreads", .bool o.mergesFragments),
      ("addTypename", .bool o.addsTypename), ("target", .text o.target.name)]

end Options
end ResponseTypes
