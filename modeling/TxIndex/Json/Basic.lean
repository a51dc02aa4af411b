/-! # JSON values

The value that a JSON text writes. Numbers are integers where they are written as such; the others
keep their text. A text may name half of a surrogate pair alone: such a string is well-formed JSON
and yet no text, and so is an object with such a key. They can be passed over, but not read. -/
namespace TxIndex

/-- A JSON value. -/
inductive Json where
  | null
  | bool (b : Bool)
  | integer (n : Int)
  /-- A number with a fraction or an exponent, or a negative zero. -/
  | real (literal : String)
  | text (s : String)
  /-- A string, or an object with a key, that is not Unicode text. -/
  | unreadable
  | array (items : List Json)
  | object (members : List (String × Json))

namespace Json

/-- Blanks between the parts of a JSON text. -/
def isBlank (c : Char) : Bool := c = ' ' || c = '\n' || c = '\t' || c = '\r'

/-- The value under a key of an object. -/
def member? (key : String) : Json → Option Json
  | .object members => members.lookup key
  | _ => none

end Json
end TxIndex
