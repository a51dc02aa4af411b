import TxIndex.Proofs.Text.Numerals
import TxIndex.Query.Printer

/-! # The grammar of queries

What it means that characters write a query, said without a reader:

    query     = blank* condition (blank* AND blank+ condition)* blank*
    condition = tag blank+ EXISTS
              | tag blank+ CONTAINS blank* text
              | tag blank* comparison blank* (text | number)

The letters of a keyword may be of either case. Behind `EXISTS` a blank must stand before `AND`. A
tag and a number need no rule that they be taken as long as possible, nor a comparison that the
longer symbol be preferred: what the grammar lets follow them could not be a part of them. -/
namespace TxIndex
namespace Query

/-- Space, tab, line feed, form feed and carriage return. -/
def blanks : List Char := [' ', '\t', '\n', '\x0c', '\r']

/-- Any number of blanks. -/
def IsBlanks (w : List Char) : Prop := ∀ c ∈ w, c ∈ blanks

/-- Letters and digits of ASCII, points, underscores and dashes, at least one. -/
def IsTag (w : List Char) : Prop :=
  w ≠ [] ∧ ∀ c ∈ w, ('a' ≤ c ∧ c ≤ 'z') ∨ ('A' ≤ c ∧ c ≤ 'Z') ∨ ('0' ≤ c ∧ c ≤ '9') ∨
    c ∈ ['.', '_', '-']

/-- The word, each of its letters in either case. -/
def Spells (word : String) (w : List Char) : Prop := w.map Char.toUpper = word.toList

end Query

open Query

/-- The characters write the argument: a text without apostrophes between two of them, or a
number. -/
inductive Argument.WrittenAs : Argument → List Char → Prop where
  | text {s : List Char} (plain : apostrophe ∉ s) :
    WrittenAs (.text (String.ofList s)) (apostrophe :: s ++ [apostrophe])
  | number {n : List Char} (numeral : Decimal.IsNumeral n) :
    WrittenAs (.number ⟨String.ofList n⟩) n

/-- The characters write the condition. -/
inductive Condition.WrittenAs : Condition → List Char → Prop where
  | present {tag gap word : List Char} (isTag : IsTag tag) (blanks : IsBlanks gap)
    (apart : gap ≠ []) (keyword : Spells "EXISTS" word) :
    WrittenAs (.present (String.ofList tag)) (tag ++ gap ++ word)
  | contains {tag gap word gap' text : List Char} (isTag : IsTag tag) (blanks : IsBlanks gap)
    (apart : gap ≠ []) (keyword : Spells "CONTAINS" word) (blanks' : IsBlanks gap')
    (plain : apostrophe ∉ text) :
    WrittenAs (.contains (String.ofList tag) (String.ofList text))
      (tag ++ gap ++ word ++ gap' ++ (apostrophe :: text ++ [apostrophe]))
  | compare {tag gap gap' w : List Char} {o : Comparison} {arg : Argument} (isTag : IsTag tag)
    (blanks : IsBlanks gap) (blanks' : IsBlanks gap') (argument : arg.WrittenAs w) :
    WrittenAs (.compare o (String.ofList tag) arg) (tag ++ gap ++ o.symbol.toList ++ gap' ++ w)

namespace Query

/-- The characters write the conditions, at least one, joined by `AND` and with blanks behind the
last. -/
inductive Joins : List Condition → List Char → Prop where
  | last {c : Condition} {w gap : List Char} (condition : c.WrittenAs w) (blanks : IsBlanks gap) :
    Joins [c] (w ++ gap)
  | more {c : Condition} {cs : List Condition} {w gap word gap' v : List Char}
    (condition : c.WrittenAs w) (blanks : IsBlanks gap) (apart : c.op = .present → gap ≠ [])
    (keyword : Spells "AND" word) (blanks' : IsBlanks gap') (apart' : gap' ≠ [])
    (others : Joins cs v) : Joins (c :: cs) (w ++ gap ++ word ++ gap' ++ v)

/-- The text writes the query. -/
def WrittenAs (q : Query) (source : String) : Prop :=
  ∃ gap w, IsBlanks gap ∧ Joins q.conditions w ∧ source.toList = gap ++ w

end Query
end TxIndex
