import Mathlib.Computability.Language
import Mathlib.Data.Char

/-! # Wildcard patterns and regular expressions

How databases read the two kinds of patterns. A wildcard pattern is a row of items, each of which
stands for one character or for any run of them (`Glob`); it is written without quotes, so a class
of characters ends at the first bracket that could end it. A regular expression stands for a
language (`Regex.language`). Both must match a text as a whole. -/
namespace TxIndex

/-- An item of a wildcard pattern. -/
inductive Glob where
  /-- Any characters, or none. -/
  | anyRun
  /-- Any one character. -/
  | anyOne
  /-- One character from ranges, or one that is in none of them. -/
  | oneOf (negated : Bool) (ranges : List (Char × Char))
  /-- The character itself. -/
  | char (c : Char)
deriving DecidableEq

namespace Glob

/-- A class of characters whose end is not yet read. -/
structure OpenClass where
  negated : Bool
  ranges : List (Char × Char)
  /-- The character that a dash makes the lower end of a range. -/
  low : Option Char

/-- The items of a pattern, perhaps from within a class on. A closing bracket that leads in a class
is a character of the class, and so is a dash without a character on either side. A class that is
not closed makes the pattern match nothing. -/
def items? : Option OpenClass → List Char → Option (List Glob)
  | none, [] => some []
  | none, '*' :: cs => (items? none cs).map (.anyRun :: ·)
  | none, '?' :: cs => (items? none cs).map (.anyOne :: ·)
  | none, '[' :: '^' :: ']' :: cs => items? (some ⟨true, [(']', ']')], none⟩) cs
  | none, '[' :: '^' :: cs => items? (some ⟨true, [], none⟩) cs
  | none, '[' :: ']' :: cs => items? (some ⟨false, [(']', ']')], none⟩) cs
  | none, '[' :: cs => items? (some ⟨false, [], none⟩) cs
  | none, c :: cs => (items? none cs).map (.char c :: ·)
  | some _, [] => none
  | some k, ']' :: cs => (items? none cs).map (.oneOf k.negated k.ranges :: ·)
  | some ⟨negated, ranges, some _⟩, '-' :: ']' :: cs =>
    (items? none cs).map (.oneOf negated (ranges ++ [('-', '-')]) :: ·)
  | some ⟨negated, ranges, some low⟩, '-' :: high :: cs =>
    items? (some ⟨negated, ranges ++ [(low, high)], none⟩) cs
  | some ⟨negated, ranges, _⟩, c :: cs =>
    items? (some ⟨negated, ranges ++ [(c, c)], some c⟩) cs

/-- A character lies in one of some ranges. -/
def InRanges (ranges : List (Char × Char)) (c : Char) : Prop := ∃ r ∈ ranges, r.1 ≤ c ∧ c ≤ r.2

instance (ranges : List (Char × Char)) (c : Char) : Decidable (InRanges ranges c) :=
  inferInstanceAs (Decidable (∃ r ∈ ranges, r.1 ≤ c ∧ c ≤ r.2))

@[simp] theorem inRanges_nil {c : Char} : ¬ InRanges [] c := by simp [InRanges]

@[simp] theorem inRanges_cons {r : Char × Char} {ranges : List (Char × Char)} {c : Char} :
    InRanges (r :: ranges) c ↔ (r.1 ≤ c ∧ c ≤ r.2) ∨ InRanges ranges c :=
  List.exists_mem_cons_iff ..

/-- Items match a text, all of them the whole of it. -/
inductive Matches : List Glob → List Char → Prop where
  | nil : Matches [] []
  | anyRun {gs : List Glob} {cs : List Char} (run : List Char) (rest : Matches gs cs) :
    Matches (.anyRun :: gs) (run ++ cs)
  | anyOne {gs : List Glob} {cs : List Char} (c : Char) (rest : Matches gs cs) :
    Matches (.anyOne :: gs) (c :: cs)
  | oneOf {negated : Bool} {ranges : List (Char × Char)} {gs : List Glob} {c : Char}
    {cs : List Char} (allowed : InRanges ranges c ↔ negated = false) (rest : Matches gs cs) :
    Matches (.oneOf negated ranges :: gs) (c :: cs)
  | char {gs : List Glob} {cs : List Char} (c : Char) (rest : Matches gs cs) :
    Matches (.char c :: gs) (c :: cs)

/-- A wildcard pattern matches a text. -/
def Accepts (pattern : String) (cs : List Char) : Prop :=
  ∃ gs, items? none pattern.toList = some gs ∧ Matches gs cs

variable {gs : List Glob} {cs : List Char}

theorem accepts_iff {pattern : String} (h : items? none pattern.toList = some gs) :
    Accepts pattern cs ↔ Matches gs cs := by
  simp [Accepts, h]

theorem matches_nil : Matches [] cs ↔ cs = [] :=
  ⟨fun h => by cases h; rfl, fun h => h ▸ .nil⟩

theorem matches_anyRun :
    Matches (.anyRun :: gs) cs ↔ ∃ run rest, cs = run ++ rest ∧ Matches gs rest :=
  ⟨fun h => by cases h with | anyRun run rest => exact ⟨run, _, rfl, rest⟩,
    fun ⟨run, _, hcs, hrest⟩ => hcs ▸ .anyRun run hrest⟩

/-- A run at the end takes whatever is left. -/
theorem matches_anyRun_last : Matches [.anyRun] cs :=
  List.append_nil cs ▸ .anyRun cs .nil

theorem matches_anyOne :
    Matches (.anyOne :: gs) cs ↔ ∃ c rest, cs = c :: rest ∧ Matches gs rest :=
  ⟨fun h => by cases h with | anyOne c rest => exact ⟨c, _, rfl, rest⟩,
    fun ⟨c, _, hcs, hrest⟩ => hcs ▸ .anyOne c hrest⟩

theorem matches_oneOf {negated : Bool} {ranges : List (Char × Char)} :
    Matches (.oneOf negated ranges :: gs) cs ↔
      ∃ c rest, cs = c :: rest ∧ (InRanges ranges c ↔ negated = false) ∧ Matches gs rest :=
  ⟨fun h => by cases h with | oneOf allowed rest => exact ⟨_, _, rfl, allowed, rest⟩,
    fun ⟨_, _, hcs, allowed, hrest⟩ => hcs ▸ .oneOf allowed hrest⟩

theorem matches_char {c : Char} :
    Matches (.char c :: gs) cs ↔ ∃ rest, cs = c :: rest ∧ Matches gs rest :=
  ⟨fun h => by cases h with | char c rest => exact ⟨_, rfl, rest⟩,
    fun ⟨_, hcs, hrest⟩ => hcs ▸ .char c hrest⟩

end Glob

/-! ## Regular expressions -/

/-- A regular expression of the kinds that are used. -/
inductive Regex where
  | char (c : Char)
  | range (low high : Char)
  | followedBy (r r' : Regex)
  | optional (r : Regex)
  /-- Once or more often. -/
  | repeated (r : Regex)
deriving DecidableEq

namespace Regex

open Computability

/-- An expression in parentheses, unless a sign behind it applies to the whole of it anyway. -/
def grouped (r : Regex) (text : String) : String :=
  match r with
  | char _ | range _ _ => text
  | _ => "(" ++ text ++ ")"

/-- The expression as it is written. A point stands for any character unless it is escaped. -/
def text : Regex → String
  | char c => if c = '.' then "\\." else c.toString
  | range low high => "[" ++ low.toString ++ "-" ++ high.toString ++ "]"
  | followedBy r r' => r.text ++ r'.text
  | optional r => r.grouped r.text ++ "?"
  | repeated r => r.grouped r.text ++ "+"

/-- What an expression matches. -/
def language : Regex → Language Char
  | char c => {[c]}
  | range low high => {cs | ∃ c, low ≤ c ∧ c ≤ high ∧ cs = [c]}
  | followedBy r r' => r.language * r'.language
  | optional r => 1 + r.language
  | repeated r => r.language * r.language∗

end Regex
end TxIndex
