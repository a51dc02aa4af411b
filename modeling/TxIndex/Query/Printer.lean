import TxIndex.Query.Basic

/-! # Queries in words

The written form of a query: tag, operator and argument of each condition with single spaces
between them, and `AND` between the conditions. Texts stand between apostrophes as they are. -/
namespace TxIndex

/-- The mark around texts. -/
def apostrophe : Char := '\x27'

/-- The written form of an argument. -/
def Argument.chars : Argument → List Char
  | .text s => apostrophe :: s.toList ++ [apostrophe]
  | .number n => n.text.toList

/-- The written form of a condition. -/
def Condition.chars (c : Condition) : List Char :=
  c.tag.toList ++ ' ' :: c.op.word.toList ++
    match c.arg with
    | none => []
    | some arg => ' ' :: arg.chars

/-- The written form of a condition. -/
def Condition.print (c : Condition) : String := String.ofList c.chars

/-- The written form of a conjunction. -/
def Query.charsOf : List Condition → List Char
  | [] => []
  | [c] => c.chars
  | c :: cs => c.chars ++ ' ' :: 'A' :: 'N' :: 'D' :: ' ' :: charsOf cs

/-- The written form of a query. -/
def Query.print (q : Query) : String := String.ofList (Query.charsOf q.conditions)

end TxIndex
