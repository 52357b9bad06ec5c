import ImagePull.Json.Basic

/-!
# Compact JSON text

A document is printed without any blank: members and elements follow each other
with a comma, a key and its value with a colon.
-/

namespace ImagePull.Json

/-- A string body between quotes. -/
def quoted (body : List UInt8) : List UInt8 :=
  0x22 :: (body ++ [0x22])

mutual

/-- The bytes of a document. -/
def render : Json → List UInt8
  | .null => [0x6E, 0x75, 0x6C, 0x6C]
  | .bool true => [0x74, 0x72, 0x75, 0x65]
  | .bool false => [0x66, 0x61, 0x6C, 0x73, 0x65]
  | .number lexeme => lexeme
  | .string body => quoted body
  | .array items => 0x5B :: renderItems items
  | .object members => 0x7B :: renderMembers members

/-- The bytes of the elements of an array, up to its end. -/
def renderItems : List Json → List UInt8
  | [] => [0x5D]
  | [item] => render item ++ [0x5D]
  | item :: rest => render item ++ 0x2C :: renderItems rest

/-- The bytes of the members of an object, up to its end. -/
def renderMembers : List (List UInt8 × Json) → List UInt8
  | [] => [0x7D]
  | [(key, value)] => quoted key ++ 0x3A :: (render value ++ [0x7D])
  | (key, value) :: rest => quoted key ++ 0x3A :: (render value ++ 0x2C :: renderMembers rest)

end

/-- The text of a document. -/
def text (document : Json) : String :=
  Text.Utf8.decodeLossy document.render

end ImagePull.Json
