/-! # Texts within texts -/
namespace TxIndex
namespace Text

/-- The characters stand in the others without a gap. Nothing stands in everything. -/
def occursIn (needle : List Char) : List Char → Bool
  | [] => needle.isEmpty
  | c :: cs => needle.isPrefixOf (c :: cs) || occursIn needle cs

theorem occursIn_iff {needle cs : List Char} : occursIn needle cs ↔ needle <:+: cs := by
  induction cs with
  | nil => simp [occursIn]
  | cons c cs ih => simp [occursIn, ih, List.infix_cons_iff]

/-- The first text stands in the second. -/
def contains (s needle : String) : Bool := occursIn needle.toList s.toList

end Text
end TxIndex
