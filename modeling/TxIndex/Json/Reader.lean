import TxIndex.Decimal.Basic
import TxIndex.Json.Basic
import TxIndex.Text.Hex

/-! # Reading JSON

Each reader takes a part from the front of the characters and hands on the rest. The recursion over
nested values is bounded by the number of characters, because every level takes one. -/
namespace TxIndex
namespace Json

/-- What is left behind leading blanks. -/
def skipBlanks (cs : List Char) : List Char := cs.dropWhile isBlank

/-- A unit of a string: a character, or one half of a surrogate pair. -/
inductive TextUnit where
  | char (c : Char)
  | half (n : Nat)
deriving DecidableEq

/-- The unit that a four-digit escape names. -/
def TextUnit.ofNumber (n : Nat) : TextUnit :=
  if 0xd800 ≤ n ∧ n < 0xe000 then .half n else .char (Char.ofNat n)

/-- The number that four hexadecimal digits write. -/
def hexNumber? (a b c d : Char) : Option Nat := do
  let a ← Hex.digitValue? a
  let b ← Hex.digitValue? b
  let c ← Hex.digitValue? c
  let d ← Hex.digitValue? d
  return 4096 * a + 256 * b + 16 * c + d

/-- The character that a one-letter escape names. -/
def escape? (c : Char) : Option Char :=
  if c = '"' then some '"'
  else if c = '\\' then some '\\'
  else if c = '/' then some '/'
  else if c = 'b' then some '\x08'
  else if c = 'f' then some '\x0c'
  else if c = 'n' then some '\n'
  else if c = 'r' then some '\r'
  else if c = 't' then some '\t'
  else none

/-- The units of a string up to its closing mark. Control characters must be escaped. -/
def textUnits : List Char → Option (List TextUnit × List Char)
  | [] => none
  | '"' :: rest => some ([], rest)
  | '\\' :: 'u' :: a :: b :: c :: d :: rest => do
    let n ← hexNumber? a b c d
    let (units, rest) ← textUnits rest
    return (TextUnit.ofNumber n :: units, rest)
  | '\\' :: e :: rest => do
    let c ← escape? e
    let (units, rest) ← textUnits rest
    return (.char c :: units, rest)
  | c :: rest =>
    if c.toNat < 0x20 then none
    else do
      let (units, rest) ← textUnits rest
      return (.char c :: units, rest)

/-- The characters of units: the halves must stand in pairs, the high one first. -/
def joinUnits : List TextUnit → Option (List Char)
  | [] => some []
  | .char c :: units => (c :: ·) <$> joinUnits units
  | .half h :: .half l :: units =>
    if h < 0xdc00 ∧ 0xdc00 ≤ l then
      (Char.ofNat (0x10000 + 1024 * (h - 0xd800) + (l - 0xdc00)) :: ·) <$> joinUnits units
    else none
  | .half _ :: _ => none

/-- A string behind its opening mark: its text if it is one, and what is left. -/
def string (cs : List Char) : Option (Option String × List Char) := do
  let (units, rest) ← textUnits cs
  return (String.ofList <$> joinUnits units, rest)

/-- A fraction, empty if none leads, and what is left. The point needs digits. -/
def fraction : List Char → Option (List Char × List Char)
  | '.' :: rest =>
    let digits := rest.takeWhile Char.isDigit
    if digits = [] then none else some ('.' :: digits, rest.dropWhile Char.isDigit)
  | cs => some ([], cs)

/-- The sign of an exponent, empty if none leads, and what is left. -/
def exponentSign : List Char → List Char × List Char
  | '+' :: rest => (['+'], rest)
  | '-' :: rest => (['-'], rest)
  | cs => ([], cs)

/-- An exponent, empty if none leads, and what is left. The letter needs digits. -/
def exponent : List Char → Option (List Char × List Char)
  | [] => some ([], [])
  | c :: rest =>
    if c = 'e' ∨ c = 'E' then
      let (sign, rest) := exponentSign rest
      let digits := rest.takeWhile Char.isDigit
      if digits = [] then none
      else some (c :: sign ++ digits, rest.dropWhile Char.isDigit)
    else some ([], c :: rest)

/-- A number behind its sign. No zero leads another digit. -/
def unsigned (negative : Bool) (cs : List Char) : Option (Json × List Char) := do
  let whole := cs.takeWhile Char.isDigit
  if whole = [] ∨ (whole.head? = some '0' ∧ whole.tail ≠ []) then none
  else
    let (fraction, rest) ← fraction (cs.dropWhile Char.isDigit)
    let (exponent, rest) ← exponent rest
    let n := Decimal.digitsValue whole
    if fraction = [] ∧ exponent = [] ∧ ¬ (negative ∧ n = 0) then
      return (.integer (if negative then -n else n), rest)
    else
      let sign := if negative then ['-'] else []
      return (.real (String.ofList (sign ++ whole ++ fraction ++ exponent)), rest)

/-- A number. -/
def number : List Char → Option (Json × List Char)
  | '-' :: rest => unsigned true rest
  | cs => unsigned false cs

/-- A given word. -/
def word (w : List Char) (j : Json) (cs : List Char) : Option (Json × List Char) :=
  if w.isPrefixOf cs then some (j, cs.drop w.length) else none

/-- Members with their keys, as an object if every key is text. -/
def ofMembers (members : List (Option String × Json)) : Json :=
  match members.mapM fun (key, j) => key.map (·, j) with
  | some members => .object members
  | none => .unreadable

mutual

/-- A value, behind blanks. -/
def value : Nat → List Char → Option (Json × List Char)
  | 0, _ => none
  | fuel + 1, cs =>
    match skipBlanks cs with
    | '"' :: rest => do
      let (s, rest) ← string rest
      return (s.elim .unreadable .text, rest)
    | '[' :: rest =>
      match skipBlanks rest with
      | ']' :: rest => some (.array [], rest)
      | _ => do
        let (xs, rest) ← items fuel rest
        return (.array xs, rest)
    | '\x7b' :: rest =>
      match skipBlanks rest with
      | '\x7d' :: rest => some (.object [], rest)
      | _ => do
        let (ms, rest) ← members fuel rest
        return (ofMembers ms, rest)
    | 'n' :: rest => word ['u', 'l', 'l'] .null rest
    | 't' :: rest => word ['r', 'u', 'e'] (.bool true) rest
    | 'f' :: rest => word ['a', 'l', 's', 'e'] (.bool false) rest
    | cs => number cs

/-- The items of an array up to its closing bracket; at least one. -/
def items : Nat → List Char → Option (List Json × List Char)
  | 0, _ => none
  | fuel + 1, cs => do
    let (x, rest) ← value fuel cs
    match skipBlanks rest with
    | ']' :: rest => return ([x], rest)
    | ',' :: rest =>
      let (xs, rest) ← items fuel rest
      return (x :: xs, rest)
    | _ => none

/-- The members of an object up to its closing brace; at least one. -/
def members : Nat → List Char → Option (List (Option String × Json) × List Char)
  | 0, _ => none
  | fuel + 1, cs =>
    match skipBlanks cs with
    | '"' :: rest => do
      let (key, rest) ← string rest
      match skipBlanks rest with
      | ':' :: rest =>
        let (x, rest) ← value fuel rest
        match skipBlanks rest with
        | '\x7d' :: rest => return ([(key, x)], rest)
        | ',' :: rest =>
          let (ms, rest) ← members fuel rest
          return ((key, x) :: ms, rest)
        | _ => none
      | _ => none
    | _ => none

end

/-- The value of a text that is one JSON value and blanks around it. -/
def read? (s : String) : Option Json :=
  match value (2 * s.toList.length + 2) s.toList with
  | some (j, rest) => if skipBlanks rest = [] then some j else none
  | none => none

end Json
end TxIndex
