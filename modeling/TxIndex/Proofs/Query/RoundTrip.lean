import TxIndex.Proofs.Query.Reading

/-! # Reading what was printed

A query that was not read from a text need not have a written form that stands for it: it may have
no condition, a tag with a blank, a text with an apostrophe. The printer writes such queries too,
but what it writes is then another query or none. Exactly the queries of writable conditions are
printed and read back (`Query.parse_print_iff`), and whatever was read is one of them. -/
namespace TxIndex

open Query

/-! ## Arguments -/

namespace Argument

/-- A text without apostrophes, or a number whose literal is one. -/
def IsWritable : Argument → Prop
  | .text s => apostrophe ∉ s.toList
  | .number n => Literal.parse? n.text = some n

variable {arg : Argument}

theorem WrittenAs.isWritable {w : List Char} (h : arg.WrittenAs w) : arg.IsWritable := by
  cases h with
  | text plain => rwa [IsWritable, String.toList_ofList]
  | number numeral => exact Literal.parse?_ofList_eq_some.2 ⟨numeral, rfl⟩

theorem IsWritable.writtenAs (h : arg.IsWritable) : arg.WrittenAs arg.chars := by
  cases arg with
  | text s =>
    have hwritten := WrittenAs.text (s := s.toList) h
    rwa [String.ofList_toList] at hwritten
  | number n =>
    obtain ⟨text⟩ := n
    have hnumeral : Decimal.IsNumeral text.toList := (Literal.parse?_eq_some.1 h).1
    have hwritten := WrittenAs.number hnumeral
    rwa [String.ofList_toList] at hwritten

end Argument

/-! ## Conditions -/

namespace Condition

/-- The condition has a proper tag and, as its operator asks, no argument, a text, or any argument,
which has a written form itself. -/
structure IsWritable (c : Condition) : Prop where
  tag : IsTag c.tag.toList
  shape : (c.op = .present ∧ c.arg = none) ∨ (c.op = .contains ∧ ∃ s, c.arg = some (.text s)) ∨
    (∃ o arg, c.op = .compare o ∧ c.arg = some arg)
  arg : ∀ arg ∈ c.arg, arg.IsWritable

variable {c : Condition}

theorem WrittenAs.isWritable {w : List Char} (h : c.WrittenAs w) : c.IsWritable := by
  have htag : ∀ {tag : List Char}, IsTag tag → IsTag (String.ofList tag).toList := fun h => by
    rwa [String.toList_ofList]
  cases h with
  | present isTag => exact ⟨htag isTag, .inl ⟨rfl, rfl⟩, fun _ h => nomatch h⟩
  | contains isTag _ _ _ _ plain =>
    refine ⟨htag isTag, .inr (.inl ⟨rfl, _, rfl⟩), ?_⟩
    rintro _ ⟨⟩
    exact (Argument.WrittenAs.text plain).isWritable
  | compare isTag _ _ harg =>
    refine ⟨htag isTag, .inr (.inr ⟨_, _, rfl, rfl⟩), ?_⟩
    rintro _ ⟨⟩
    exact harg.isWritable

/-- What the printer writes for a writable condition stands for it. -/
theorem IsWritable.writtenAs (h : c.IsWritable) : c.WrittenAs c.chars := by
  obtain ⟨tag, op, arg⟩ := c
  obtain ⟨htag, hshape, harg⟩ := h
  have hblank := isBlanks_space
  have hne : [' '] ≠ [] := List.cons_ne_nil _ _
  dsimp only at htag hshape harg
  rcases hshape with ⟨rfl, rfl⟩ | ⟨rfl, s, rfl⟩ | ⟨o, arg, rfl, rfl⟩
  · have hword : Spells "EXISTS" "EXISTS".toList := rfl
    simpa [chars, Operator.word, present] using WrittenAs.present htag hblank hne hword
  · have hword : Spells "CONTAINS" "CONTAINS".toList := rfl
    have hplain : apostrophe ∉ s.toList := harg _ rfl
    simpa [chars, Operator.word, contains, Argument.chars] using
      WrittenAs.contains htag hblank hne hword hblank hplain
  · simpa [chars, Operator.word, compare] using
      WrittenAs.compare (o := o) htag hblank hblank (harg _ rfl).writtenAs

end Condition

/-! ## Queries -/

namespace Query

theorem Joins.isWritable {conditions : List Condition} {w : List Char} (h : Joins conditions w) :
    conditions ≠ [] ∧ ∀ c ∈ conditions, c.IsWritable := by
  induction h with
  | last hc => exact ⟨List.cons_ne_nil _ _, by simpa using hc.isWritable⟩
  | more hc _ _ _ _ _ _ ih =>
    exact ⟨List.cons_ne_nil _ _, List.forall_mem_cons.2 ⟨hc.isWritable, ih.2⟩⟩

theorem joins_charsOf {conditions : List Condition} (hne : conditions ≠ [])
    (h : ∀ c ∈ conditions, c.IsWritable) : Joins conditions (charsOf conditions) := by
  induction conditions with
  | nil => exact absurd rfl hne
  | cons c others ih =>
    have hc := (h c List.mem_cons_self).writtenAs
    cases others with
    | nil => simpa [charsOf] using Joins.last hc isBlanks_nil
    | cons c' others =>
      have hothers := ih (List.cons_ne_nil _ _) fun x hx => h x (List.mem_cons_of_mem _ hx)
      have hword : Spells "AND" "AND".toList := rfl
      have hne : [' '] ≠ [] := List.cons_ne_nil _ _
      simpa [charsOf] using
        Joins.more hc isBlanks_space (fun _ => hne) hword isBlanks_space hne hothers

/-- A query that is read back from its printed form is made of writable conditions, and so is every
query that was read from any text. -/
theorem isWritable_of_parse {q : Query} {source : String} (h : parse source = .ok q) :
    q.conditions ≠ [] ∧ ∀ c ∈ q.conditions, c.IsWritable := by
  obtain ⟨-, w, -, hjoins, -⟩ := parse_eq_ok.1 h
  exact hjoins.isWritable

theorem parse_print {q : Query} (hne : q.conditions ≠ [])
    (h : ∀ c ∈ q.conditions, c.IsWritable) : parse q.print = .ok q :=
  parse_eq_ok.2 ⟨[], _, isBlanks_nil, joins_charsOf hne h, String.toList_ofList⟩

/-- **Printing and reading are inverse to each other on the queries of the language.** A query is
read back from what is printed for it exactly if it has a condition and all its conditions are
writable. These include every query that was read from a text. -/
theorem parse_print_iff (q : Query) :
    (parse q.print = .ok q ↔ q.conditions ≠ [] ∧ ∀ c ∈ q.conditions, c.IsWritable) ∧
      ∀ source, parse source = .ok q → parse q.print = .ok q := by
  refine ⟨⟨isWritable_of_parse, fun ⟨hne, h⟩ => parse_print hne h⟩, fun source h => ?_⟩
  obtain ⟨hne, hwritable⟩ := isWritable_of_parse h
  exact parse_print hne hwritable

end Query
end TxIndex
