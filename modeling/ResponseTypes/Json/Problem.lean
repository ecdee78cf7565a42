import ResponseTypes.Decimal.Shortest
import ResponseTypes.Json.Value
import ResponseTypes.Text.Quoted

/-!
# Problems of decoding

A decoder stops at the first problem of a JSON text: a fault of the grammar, or a value that is not
what the decoder asks for.

## What is here

* `Json.Found.describe` — what a message calls the head of a value.
* `Json.Problem` — the problems, and `Json.Problem.message` — their texts.
-/

set_option autoImplicit false

namespace ResponseTypes
namespace Json

/-- What a message calls a number. -/
def Number.describe : Number → String
  | .natural n => "integer \x60" ++ toString n ++ "\x60"
  | .negative n => "integer \x60-" ++ toString n ++ "\x60"
  | .double bits => "floating point \x60" ++ Decimal.textOfBits bits ++ "\x60"

/-- What a message calls the head of a value. -/
def Found.describe : Found → String
  | .null => "null"
  | .bool true => "boolean \x60true\x60"
  | .bool false => "boolean \x60false\x60"
  | .number n => n.describe
  | .string s => "string " ++ Text.quote s
  | .sequence => "sequence"
  | .map => "map"

/-- A problem met while decoding. -/
inductive Problem where
  /-- The text is no JSON from here on. -/
  | fault (f : Fault)
  /-- A value of another kind than expected. -/
  | invalidType (found : Found) (expected : String)
  /-- An array of the wrong length. -/
  | invalidLength (length : Nat) (expected : String)
  /-- A number that is the index of no variant. -/
  | invalidIndex (index : Nat) (count : Nat)
  /-- A name that is the name of no variant. -/
  | unknownVariant (name : String) (known : List String)
  /-- A required field that is not there. -/
  | missingField (name : String)
  /-- A field that is there twice. -/
  | duplicateField (name : String)
  /-- A value of the right kind that is refused for its content. -/
  | rejected (reason : String)
deriving DecidableEq, Repr

/-- A name between backticks. -/
def ticked (name : String) : String :=
  "\x60" ++ name ++ "\x60"

/-- The text of a problem. -/
def Problem.message : Problem → String
  | .fault .endOfText => "the text ends too early"
  | .fault .malformed => "malformed text"
  | .invalidType found expected =>
    "invalid type: " ++ found.describe ++ ", expected " ++ expected
  | .invalidLength length expected =>
    "invalid length " ++ toString length ++ ", expected " ++ expected
  | .invalidIndex index count =>
    "invalid value: integer " ++ ticked (toString index) ++
      ", expected variant index 0 <= i < " ++ toString count
  | .unknownVariant name known =>
    "unknown variant " ++ ticked name ++ ", expected one of " ++
      String.intercalate ", " (known.map ticked)
  | .missingField name => "missing field " ++ ticked name
  | .duplicateField name => "duplicate field " ++ ticked name
  | .rejected reason => reason

end Json
end ResponseTypes
