import SqlComposer.Json.Basic
import SqlComposer.Number.Layout

/-!
# Compact JSON text

A JSON value is printed without blanks, with its members in order.  In a string
only quotation marks, backslashes and the controls below U+0020 are escaped:
five of the controls by a letter, the others by four hexadecimal digits in lower
case.  Everything else stands for itself.
-/

namespace SqlComposer

set_option autoImplicit false

namespace Json

/-- Four lowercase hexadecimal digits behind a backslash and a `u`. -/
def unicodeEscape (character : Char) : Text :=
  let digits := Nat.toDigits 16 character.toNat
  '\\' :: 'u' :: Number.zeros (4 - digits.length) ++ digits

def escapedCharacter (character : Char) : Text :=
  if character = '"' then "\\\""
  else if character = '\\' then "\\\\"
  else if character = '\x08' then "\\b"
  else if character = '\x0c' then "\\f"
  else if character = '\n' then "\\n"
  else if character = '\r' then "\\r"
  else if character = '\t' then "\\t"
  else if character.toNat < 0x20 then unicodeEscape character
  else [character]

def quoted (text : Text) : Text :=
  '"' :: text.flatMap escapedCharacter ++ ['"']

def Number.text : Number → Text
  | .int value => SqlComposer.Number.signedDigits value.toInt
  | .uint value => SqlComposer.Number.digits value.toNat
  | .float value => value.jsonText

mutual

/-- The compact text of a value. -/
def text : Json → Text
  | .null => "null"
  | .bool value => if value then "true" else "false"
  | .number value => value.text
  | .string value => quoted value
  | .array items => '[' :: itemsText items ++ [']']
  | .object members => '\x7b' :: membersText members ++ ['\x7d']

def itemsText : List Json → Text
  | [] => []
  | [item] => text item
  | item :: rest => text item ++ ',' :: itemsText rest

def membersText : List (Text × Json) → Text
  | [] => []
  | [(key, value)] => quoted key ++ ':' :: text value
  | (key, value) :: rest => quoted key ++ ':' :: text value ++ ',' :: membersText rest

end

end Json

end SqlComposer
