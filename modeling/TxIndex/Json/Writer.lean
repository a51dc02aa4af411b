import TxIndex.Json.Basic

/-! # Writing JSON

Values are written without blanks, members in their order. In strings the quotation mark, the
backslash and the control characters are escaped, the common ones by a letter and the others by
their number; every other character stands for itself. -/
namespace TxIndex
namespace Json

/-- A character inside a string. -/
def escapedChar (c : Char) : List Char :=
  if c = '"' then ['\\', '"']
  else if c = '\\' then ['\\', '\\']
  else if c = '\x08' then ['\\', 'b']
  else if c = '\x0c' then ['\\', 'f']
  else if c = '\n' then ['\\', 'n']
  else if c = '\r' then ['\\', 'r']
  else if c = '\t' then ['\\', 't']
  else if c.toNat < 0x20 then
    ['\\', 'u', '0', '0', Nat.digitChar (c.toNat / 16), Nat.digitChar (c.toNat % 16)]
  else [c]

/-- A string. -/
def stringChars (s : String) : List Char := '"' :: s.toList.flatMap escapedChar ++ ['"']

mutual

/-- The written form of a value. -/
def chars : Json → List Char
  | .null => ['n', 'u', 'l', 'l']
  | .bool true => ['t', 'r', 'u', 'e']
  | .bool false => ['f', 'a', 'l', 's', 'e']
  | .integer n => (toString n).toList
  | .real literal => literal.toList
  | .text s => stringChars s
  | .unreadable => ['n', 'u', 'l', 'l']
  | .array items => '[' :: itemChars items ++ [']']
  | .object members => '\x7b' :: memberChars members ++ ['\x7d']

/-- The written form of the items of an array. -/
def itemChars : List Json → List Char
  | [] => []
  | [x] => chars x
  | x :: y :: xs => chars x ++ ',' :: itemChars (y :: xs)

/-- The written form of the members of an object. -/
def memberChars : List (String × Json) → List Char
  | [] => []
  | [(key, x)] => stringChars key ++ ':' :: chars x
  | (key, x) :: m :: ms => stringChars key ++ ':' :: chars x ++ ',' :: memberChars (m :: ms)

end

/-- The text of a value. -/
def write (j : Json) : String := String.ofList j.chars

end Json
end TxIndex
