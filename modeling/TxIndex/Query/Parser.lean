import TxIndex.Query.Basic
import TxIndex.Query.Printer
import TxIndex.Text.Quoted

/-! # Reading queries

The reader works on the characters that are left. Each step either takes a part of them and hands
on the rest, or refuses with the rest at which it stopped; so the place of an error is a cut of the
source between two characters, and its offset is the number of bytes before the cut. -/
namespace TxIndex
namespace Query

/-- What a reader misses. -/
inductive Fault where
  | expectedAnd
  | expectedTag
  | expectedOperator
  | expectedValue
  | unterminatedText
  | containsNeedsText
deriving DecidableEq

namespace Fault

/-- The fault in words. -/
def message : Fault → String
  | .expectedAnd => "expected AND"
  | .expectedTag => "expected tag"
  | .expectedOperator => "expected operator"
  | .expectedValue => "expected string or number"
  | .unterminatedText => "unterminated string"
  | .containsNeedsText => "CONTAINS requires a string"

end Fault

/-- A refusal: what is missed, and the characters left at that point. -/
structure Refusal where
  fault : Fault
  rest : List Char
deriving DecidableEq

namespace Refusal

/-- The number of bytes of the source before the point of refusal. -/
def offset (r : Refusal) (source : String) : Nat :=
  source.utf8ByteSize - (String.ofList r.rest).utf8ByteSize

/-- The refusal in words. -/
def describe (r : Refusal) (source : String) : String :=
  s!"{r.fault.message} at offset {r.offset source} in {Text.quoted source}"

end Refusal

/-- Characters between the parts of a query. -/
def isBlank (c : Char) : Bool :=
  c = ' ' || c = '\t' || c = '\n' || c = '\x0c' || c = '\r'

/-- Characters of a tag: letters and digits of ASCII, the point, the underscore and the dash. -/
def isTagChar (c : Char) : Bool := c.isAlphanum || c = '.' || c = '_' || c = '-'

/-- Characters of which a number may consist. -/
def isNumberChar (c : Char) : Bool := c.isDigit || c = '.' || c = '-'

/-- What is left behind leading blanks. -/
def skipBlanks (cs : List Char) : List Char := cs.dropWhile isBlank

/-- What is left behind a leading word, which may be written in either case and must not run on
into a tag. -/
def keyword? (word : String) (cs : List Char) : Option (List Char) :=
  let rest := cs.drop word.length
  if (cs.take word.length).map Char.toUpper = word.toList ∧ ¬ rest.head?.any isTagChar then
    some rest
  else none

/-- A leading comparison, the longer symbols first, and what is left behind it. -/
def comparison? : List Char → Option (Comparison × List Char)
  | '<' :: '=' :: rest => some (.le, rest)
  | '>' :: '=' :: rest => some (.ge, rest)
  | '<' :: rest => some (.lt, rest)
  | '>' :: rest => some (.gt, rest)
  | '=' :: rest => some (.eq, rest)
  | _ => none

/-- A leading argument: a text between apostrophes, or a number. -/
def argument (cs : List Char) : Except Refusal (Argument × List Char) :=
  if cs.head? = some apostrophe then
    match cs.tail.dropWhile (· ≠ apostrophe) with
    | [] => .error ⟨.unterminatedText, cs⟩
    | _ :: rest => .ok (.text (String.ofList (cs.tail.takeWhile (· ≠ apostrophe))), rest)
  else
    let rest := cs.dropWhile isNumberChar
    match Literal.parse? (String.ofList (cs.takeWhile isNumberChar)) with
    | none => .error ⟨.expectedValue, rest⟩
    | some n => .ok (.number n, rest)

/-- What follows a tag: the operator, the argument if it takes one, and the rest. -/
def test (tag : String) (cs : List Char) : Except Refusal (Condition × List Char) :=
  match keyword? "EXISTS" cs with
  | some rest => .ok (Condition.present tag, rest)
  | none =>
    match keyword? "CONTAINS" cs with
    | some rest => do
      match ← argument (skipBlanks rest) with
      | (.text needle, rest) => .ok (Condition.contains tag needle, rest)
      | (.number _, rest) => .error ⟨.containsNeedsText, rest⟩
    | none =>
      match comparison? cs with
      | none => .error ⟨.expectedOperator, cs⟩
      | some (c, rest) => do
        let (arg, rest) ← argument (skipBlanks rest)
        return (Condition.compare c tag arg, rest)

/-- A condition, behind blanks. -/
def condition (cs : List Char) : Except Refusal (Condition × List Char) :=
  let start := skipBlanks cs
  let rest := start.dropWhile isTagChar
  if start.takeWhile isTagChar = [] then .error ⟨.expectedTag, rest⟩
  else test (String.ofList (start.takeWhile isTagChar)) (skipBlanks rest)

/-! ## Progress

No step lengthens what is left, and a condition shortens it; so the reading of a conjunction ends. -/

theorem length_skipBlanks_le (cs : List Char) : (skipBlanks cs).length ≤ cs.length :=
  (List.dropWhile_sublist _).length_le

theorem length_keyword? {word : String} {cs rest : List Char} (h : keyword? word cs = some rest) :
    rest.length ≤ cs.length := by
  simp only [keyword?] at h
  split at h <;> cases h
  simp

theorem length_comparison? {cs rest : List Char} {c : Comparison}
    (h : comparison? cs = some (c, rest)) : rest.length ≤ cs.length := by
  unfold comparison? at h
  split at h <;> cases h <;> simp <;> omega

theorem length_argument {cs rest : List Char} {arg : Argument}
    (h : argument cs = .ok (arg, rest)) : rest.length ≤ cs.length := by
  simp only [argument] at h
  split at h
  · split at h
    · cases h
    · rename_i hd
      cases h
      have := (List.dropWhile_sublist (l := cs.tail) (· ≠ apostrophe)).length_le
      rw [hd, List.length_cons, List.length_tail] at this
      omega
  · split at h <;> cases h
    exact (List.dropWhile_sublist _).length_le

theorem length_test {tag : String} {cs rest : List Char} {c : Condition}
    (h : test tag cs = .ok (c, rest)) : rest.length ≤ cs.length := by
  unfold test at h
  split at h
  · rename_i hk
    cases h
    exact length_keyword? hk
  split at h
  · rename_i after hk
    have hk := length_keyword? hk
    have hb := length_skipBlanks_le after
    simp only [bind, Except.bind] at h
    split at h
    · cases h
    · rename_i ha
      split at h <;> cases h
      have := length_argument ha
      omega
  split at h
  · cases h
  · rename_i after hc
    have hc := length_comparison? hc
    have hb := length_skipBlanks_le after
    simp only [bind, Except.bind] at h
    split at h
    · cases h
    · rename_i ha
      cases h
      have := length_argument ha
      omega

/-- A condition takes at least one character. -/
theorem length_condition {cs rest : List Char} {c : Condition}
    (h : condition cs = .ok (c, rest)) : rest.length < cs.length := by
  simp only [condition] at h
  split at h
  · cases h
  · rename_i ht
    have hs := length_test h
    have hb := length_skipBlanks_le ((skipBlanks cs).dropWhile isTagChar)
    have hc := length_skipBlanks_le cs
    have hl := congrArg List.length
      (List.takeWhile_append_dropWhile (p := isTagChar) (l := skipBlanks cs))
    have hp := List.length_pos_iff.2 ht
    rw [List.length_append] at hl
    omega

/-! ## Conjunctions -/

/-- Conditions joined by `AND`, up to the end. -/
def conditionList (cs : List Char) : Except Refusal (List Condition) :=
  match _h : condition cs with
  | .error refusal => .error refusal
  | .ok (c, rest) =>
    if skipBlanks rest = [] then .ok [c]
    else match _k : keyword? "AND" (skipBlanks rest) with
      | none => .error ⟨.expectedAnd, skipBlanks rest⟩
      | some next => (c :: ·) <$> conditionList next
termination_by cs.length
decreasing_by
  have := length_keyword? _k
  have := length_skipBlanks_le rest
  have := length_condition _h
  omega

/-- The query that a text writes. -/
def parse (source : String) : Except Failure Query :=
  match conditionList source.toList with
  | .ok conditions => .ok ⟨conditions⟩
  | .error refusal => .error (.query (refusal.describe source))

end Query
end TxIndex
