import Mathlib.Data.List.Basic

/- PostgreSQL's `jsonb` and the operators on it. An SQL null is `none`; the JSON null is a
   value of its own, which `->>` turns into the SQL one. -/
namespace Sql

abbrev Text := String

inductive Jsonb where
  | null
  | bool (b : Bool)
  | number (literal : Text)
  | string (text : Text)
  | array (elements : List Jsonb)
  | object (members : List (Text × Jsonb))

namespace Jsonb

def typeof : Jsonb → Text
  | null => "null"
  | bool _ => "boolean"
  | number _ => "number"
  | string _ => "string"
  | array _ => "array"
  | object _ => "object"

/-- `json -> key`. -/
def get (json : Jsonb) (key : Text) : Option Jsonb :=
  match json with
  | object members => (members.find? fun member => member.1 = key).map Prod.snd
  | _ => none

def hexDigit (n : ℕ) : Char := ("0123456789abcdef".toList)[n % 16]?.getD '0'

/-- `escape_json`, of one character. -/
def escapeChar (c : Char) : Text :=
  match c with
  | '\x08' => "\\b"
  | '\x0c' => "\\f"
  | '\n' => "\\n"
  | '\r' => "\\r"
  | '\t' => "\\t"
  | '"' => "\\\""
  | '\\' => "\\\\"
  | c => if c.toNat < 32 then "\\u00" ++ String.ofList [hexDigit (c.toNat / 16), hexDigit c.toNat]
      else String.singleton c

def escapeJson (text : Text) : Text := "\"" ++ String.join (text.toList.map escapeChar) ++ "\""

mutual

/-- `json::text`. -/
def asText : Jsonb → Text
  | null => "null"
  | bool b => if b then "true" else "false"
  | number literal => literal
  | string text => escapeJson text
  | array elements => "[" ++ ", ".intercalate (elementTexts elements) ++ "]"
  | object members => "\x7b" ++ ", ".intercalate (memberTexts members) ++ "\x7d"

def elementTexts : List Jsonb → List Text
  | [] => []
  | element :: rest => asText element :: elementTexts rest

def memberTexts : List (Text × Jsonb) → List Text
  | [] => []
  | (key, value) :: rest => (escapeJson key ++ ": " ++ asText value) :: memberTexts rest

end

/-- A value as `->>` gives it. -/
def toText : Jsonb → Option Text
  | null => none
  | string text => some text
  | json => some json.asText

/-- `json ->> key`. -/
def getText (json : Jsonb) (key : Text) : Option Text := (json.get key).bind toText

/-- `json #>> array[first, second]`, of an object in an object. -/
def getPathText (json : Jsonb) (first second : Text) : Option Text :=
  (json.get first).bind fun inner => inner.getText second

/-- `json ? key`. -/
def hasKey (json : Jsonb) (key : Text) : Bool :=
  match json with
  | object members => members.any fun member => member.1 = key
  | array elements => elements.any fun | string text => text = key | _ => false
  | string text => text = key
  | _ => false

/-- `jsonb_object_keys`, of an object. -/
def objectKeys : Jsonb → List Text
  | object members => members.map Prod.fst
  | _ => []

/-- `jsonb_array_elements` of an array. -/
def arrayElements : Jsonb → List Jsonb
  | array elements => elements
  | _ => []

/-- `jsonb_build_object` of different keys, stored by length and then by bytes. -/
def buildObject (members : List (Text × Jsonb)) : Jsonb :=
  object (members.mergeSort fun left right => decide (left.1.utf8ByteSize < right.1.utf8ByteSize ∨
    left.1.utf8ByteSize = right.1.utf8ByteSize ∧ left.1 ≤ right.1))

/-- `left || right` of two objects: a key of the right one replaces the left one's. -/
def concat : Jsonb → Jsonb → Jsonb
  | object left, object right =>
    buildObject ((left.filter fun member => !right.any fun other => other.1 = member.1) ++ right)
  | left, _ => left

end Jsonb

end Sql
