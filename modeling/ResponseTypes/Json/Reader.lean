import ResponseTypes.Json.Number
import ResponseTypes.Json.Text

/-!
# Reading JSON text

The reader turns a text into a `Json.Reading`: the value it starts with, and the fault in what
follows the value.  It never fails; where the text breaks the grammar or ends, the value says so at
that place and the reading stops.

Reading descends into arrays and objects.  Each step either consumes a character or hands over to a
value that does, so twice the length of the text bounds the number of nested steps; `Json.read`
supplies that bound.

## What is here

* `Json.readValue`, `Json.readItems`, `Json.readMembers` — the reader, bounded by a number of steps.
* `Json.read` — a whole text.
-/

set_option autoImplicit false

namespace ResponseTypes
namespace Json

/-! ## Blanks and literals -/

/-- The blanks of JSON. -/
def isSpace (c : Char) : Bool :=
  c = ' ' || c = '\t' || c = '\n' || c = '\r'

/-- The text from its first character on that is no blank. -/
def skipSpace (cs : List Char) : List Char :=
  cs.dropWhile isSpace

/-- The fault of a text that stands where something else is expected. -/
def faultAt : List Char → Fault
  | [] => .endOfText
  | _ :: _ => .malformed

/-- Reads the rest of a literal whose first character was met. -/
def scanWord : List Char → List Char → Except Fault (List Char)
  | [], cs => .ok cs
  | _ :: _, [] => .error .endOfText
  | w :: ws, c :: cs => if c = w then scanWord ws cs else .error .malformed

/-- What a value starts with, seen from its first character: a literal, a number, a string, an array
or an object, and the text after that first character where one is needed to read on. -/
inductive Start where
  | literal (v : Value) (cs : List Char)
  | number (isNegative : Bool) (cs : List Char)
  | string (cs : List Char)
  | array (cs : List Char)
  | object (cs : List Char)
  | none

/-- The start of the value at the front of a text without leading blanks. -/
def startOf : List Char → Start
  | 'n' :: cs => .literal .null cs
  | 't' :: cs => .literal (.bool true) cs
  | 'f' :: cs => .literal (.bool false) cs
  | '-' :: cs => .number true cs
  | '"' :: cs => .string cs
  | '[' :: cs => .array cs
  | '\x7b' :: cs => .object cs
  | c :: cs => if (digit? c).isSome then .number false (c :: cs) else .none
  | [] => .none

/-- What follows the first character of a literal. -/
def wordTail : Value → List Char
  | .null => ['u', 'l', 'l']
  | .bool true => ['r', 'u', 'e']
  | .bool false => ['a', 'l', 's', 'e']
  | _ => []

/-! ## The reader -/

mutual

/-- Reads a value: the value, and the rest of the text or the fault that ended the reading. -/
def readValue : Nat → List Char → Value × Except Fault (List Char)
  | 0, _ => (.absent .endOfText, .error .endOfText)
  | steps + 1, cs =>
    let cs := skipSpace cs
    match startOf cs with
    | .literal v rest =>
      match scanWord (wordTail v) rest with
      | .ok rest => (v, .ok rest)
      | .error f => (.word f, .error f)
    | .number isNegative rest =>
      let (n, rest) := scanNumber isNegative rest
      (.number n, rest)
    | .string rest =>
      let (s, rest) := scanString .start rest
      (.string s, rest)
    | .array rest =>
      match skipSpace rest with
      | [] => (.array (.done (.cut .endOfText)), .error .endOfText)
      | ']' :: rest => (.array (.done .closed), .ok rest)
      | _ :: _ =>
        let (items, rest) := readItems steps rest
        (.array items, rest)
    | .object rest =>
      match skipSpace rest with
      | [] => (.object (.done (.cut .endOfText)), .error .endOfText)
      | '\x7d' :: rest => (.object (.done .closed), .ok rest)
      | '"' :: rest =>
        let (members, rest) := readMembers steps rest
        (.object members, rest)
      | _ :: _ => (.object (.done (.cut .malformed)), .error .malformed)
    | .none => (.absent (faultAt cs), .error (faultAt cs))

/-- Reads the items of an array, of which there is at least one, and the closing bracket. -/
def readItems : Nat → List Char → Items × Except Fault (List Char)
  | 0, _ => (.done (.cut .endOfText), .error .endOfText)
  | steps + 1, cs =>
    let (v, rest) := readValue steps cs
    match rest with
    | .error f => (.item v (.done (.cut f)), .error f)
    | .ok rest =>
      match skipSpace rest with
      | ']' :: rest => (.item v (.done .closed), .ok rest)
      | ',' :: rest =>
        let (items, rest) := readItems steps rest
        (.item v items, rest)
      | rest => (.item v (.done (.cut (faultAt rest))), .error (faultAt rest))

/-- Reads the members of an object from after the opening quote of a key, and the closing brace. -/
def readMembers : Nat → List Char → Members × Except Fault (List Char)
  | 0, _ => (.done (.cut .endOfText), .error .endOfText)
  | steps + 1, cs =>
    let (key, rest) := scanString .start cs
    match rest with
    | .error f => (.member key (.absent f) (.done (.cut f)), .error f)
    | .ok rest =>
      match skipSpace rest with
      | ':' :: rest =>
        let (v, rest) := readValue steps rest
        match rest with
        | .error f => (.member key v (.done (.cut f)), .error f)
        | .ok rest =>
          match skipSpace rest with
          | '\x7d' :: rest => (.member key v (.done .closed), .ok rest)
          | ',' :: rest =>
            match skipSpace rest with
            | '"' :: rest =>
              let (members, rest) := readMembers steps rest
              (.member key v members, rest)
            | rest => (.member key v (.done (.afterComma (faultAt rest))), .error (faultAt rest))
          | rest => (.member key v (.done (.cut (faultAt rest))), .error (faultAt rest))
      | rest =>
        let f := faultAt rest
        (.member key (.absent f) (.done (.cut f)), .error f)

end

/-! ## Whole texts -/

/-- A text as JSON: the value it starts with, and the fault met after that value. -/
structure Reading where
  value : Value
  trailing? : Option Fault

/-- Reads a whole text, which should hold one value between blanks. -/
def read (s : String) : Reading :=
  let cs := s.toList
  match readValue (2 * cs.length + 2) cs with
  | (v, .error f) => ⟨v, some f⟩
  | (v, .ok rest) =>
    match skipSpace rest with
    | [] => ⟨v, none⟩
    | _ :: _ => ⟨v, some .malformed⟩

end Json
end ResponseTypes
