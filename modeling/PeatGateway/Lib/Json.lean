import PeatGateway.Lib.Wire

/-!
# JSON values

Values as a parser leaves them, looking entries up, and the compact text of a value.

## Main definitions

* `Json`, `JsonMap` — values, and the entries of an object.
* `JsonMap.get`, `Json.get`, `Json.asStr` — lookups.
* `Json.toText` — the compact text.
-/

/-- JSON values.  A number is the text it is displayed as. -/
inductive Json
  | null
  | bool (b : Bool)
  | number (text : String)
  | string (s : String)
  | array (vs : List Json)
  | object (fields : List (String × Json))

/-- The entries of an object. -/
abbrev JsonMap : Type := List (String × Json)

/-- `map.get(key)`. -/
def JsonMap.get (m : JsonMap) (key : String) : Option Json := m.lookup key

namespace Json

/-- `value.get(key)`: anything but an object has no entries. -/
def get : Json → String → Option Json
  | .object m, key => JsonMap.get m key
  | _, _ => none

/-- `value.as_str()`. -/
def asStr : Json → Option String
  | .string s => some s
  | _ => none

/-! ### The text of a value -/

/-- A character inside quotes.  Control characters without a short escape are written by
their code. -/
def escapeChar (c : Char) : List Char :=
  if c == '"' then ['\\', '"']
  else if c == '\\' then ['\\', '\\']
  else if c.toNat == 8 then ['\\', 'b']
  else if c.toNat == 9 then ['\\', 't']
  else if c.toNat == 10 then ['\\', 'n']
  else if c.toNat == 12 then ['\\', 'f']
  else if c.toNat == 13 then ['\\', 'r']
  else if c.toNat < 32 then
    ['\\', 'u', '0', '0', Wire.hexDigit (c.toNat / 16), Wire.hexDigit (c.toNat % 16)]
  else [c]

/-- A string in quotes. -/
def quote (s : String) : String :=
  "\"" ++ String.ofList (s.toList.flatMap escapeChar) ++ "\""

mutual

/-- The compact text of a value. -/
def toText : Json → String
  | .null => "null"
  | .bool true => "true"
  | .bool false => "false"
  | .number text => text
  | .string s => quote s
  | .array vs => "[" ++ elemsText vs ++ "]"
  | .object fields => "\x7b" ++ fieldsText fields ++ "\x7d"

/-- The elements of an array. -/
def elemsText : List Json → String
  | [] => ""
  | [v] => toText v
  | v :: vs => toText v ++ "," ++ elemsText vs

/-- The entries of an object. -/
def fieldsText : List (String × Json) → String
  | [] => ""
  | [f] => fieldText f
  | f :: fs => fieldText f ++ "," ++ fieldsText fs

/-- One entry of an object. -/
def fieldText : String × Json → String
  | (key, v) => quote key ++ ":" ++ toText v

end

example : toText (.object [("a", .array [.number "1", .null]), ("b", .string "x\n")]) =
    "\x7b\"a\":[1,null],\"b\":\"x\\n\"\x7d" := by decide

end Json
