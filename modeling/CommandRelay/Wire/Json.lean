/-!
# JSON values and their compact text

The relay writes every text frame through `serde_json::to_string`.  Only the
values and the compact printer are needed here: the byte length of a frame
counts towards a connection's outbound budget.
-/

namespace CommandRelay

/-- A number as `serde_json` prints it; a float carries its printed form. -/
inductive JsonNumber where
  | nat (n : Nat)
  | neg (n : Nat)
  | float (text : String)
  deriving DecidableEq

inductive Json where
  | null
  | bool (b : Bool)
  | number (n : JsonNumber)
  | string (s : String)
  | array (items : List Json)
  | object (fields : List (String × Json))

namespace Json

def hexDigit (n : Nat) : Char :=
  if n < 10 then Char.ofNat (0x30 + n) else Char.ofNat (0x61 + (n - 10))

/-- The escapes of `serde_json`: named ones first, then `\u00xx` for controls. -/
def escapeChar (c : Char) : List Char :=
  if c = '"' then ['\\', '"']
  else if c = '\\' then ['\\', '\\']
  else if c = Char.ofNat 0x08 then ['\\', 'b']
  else if c = Char.ofNat 0x0c then ['\\', 'f']
  else if c = Char.ofNat 0x0a then ['\\', 'n']
  else if c = Char.ofNat 0x0d then ['\\', 'r']
  else if c = Char.ofNat 0x09 then ['\\', 't']
  else if c.toNat < 0x20 then
    ['\\', 'u', '0', '0', hexDigit (c.toNat / 16), hexDigit (c.toNat % 16)]
  else [c]

def quoted (s : String) : List Char :=
  '"' :: s.toList.flatMap escapeChar ++ ['"']

def renderNumber : JsonNumber -> List Char
  | .nat n => Nat.toDigits 10 n
  | .neg n => '-' :: Nat.toDigits 10 n
  | .float text => text.toList

mutual

def render : Json -> List Char
  | .null => "null".toList
  | .bool true => "true".toList
  | .bool false => "false".toList
  | .number n => renderNumber n
  | .string s => quoted s
  | .array items => '[' :: renderItems items ++ [']']
  | .object fields =>
      Char.ofNat 0x7b :: renderFields fields ++ [Char.ofNat 0x7d]

def renderItems : List Json -> List Char
  | [] => []
  | [item] => render item
  | item :: rest => render item ++ ',' :: renderItems rest

def renderFields : List (String × Json) -> List Char
  | [] => []
  | [(name, value)] => quoted name ++ ':' :: render value
  | (name, value) :: rest =>
      quoted name ++ ':' :: render value ++ ',' :: renderFields rest

end

/-- `serde_json::to_string`. -/
def toText (j : Json) : String :=
  String.ofList (render j)

def asStr? : Json -> Option String
  | .string s => some s
  | _ => none

example : (object [("type", .string "ping")]).toText.utf8ByteSize = 15 := by decide

end Json

end CommandRelay
