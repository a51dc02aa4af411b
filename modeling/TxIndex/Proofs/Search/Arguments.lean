import TxIndex.Json.Query
import TxIndex.Proofs.Decimal.Integers
import TxIndex.Proofs.Search.Compilation

/-! # Heights as texts and as numbers

The height that a condition compares with may be given as a text or as a number. Of either only the
height counts that it denotes (`Condition.SameHeight.compileWithin_eq`). A text must be a numeral,
while a number is converted as far as it writes an integer, so the two agree on all texts but those
that write one with a plus sign or with nothing behind the point (`Plan.compile_quoted_height`). A
number of such a text cannot be parsed, but it can be built or read from JSON. -/
namespace TxIndex

namespace Condition

/-- The conditions compare the height in the same way, and with the same height, or fail to denote
one in the same way. -/
structure SameHeight (c c' : Condition) : Prop where
  comparesHeight : c.comparesHeight = true
  tag : c.tag = c'.tag
  op : c.op = c'.op
  height : c.height = c'.height

namespace SameHeight

variable {c c' : Condition} {before after : List Condition}

theorem comparesHeight_eq (h : c.SameHeight c') : c.comparesHeight = c'.comparesHeight := by
  rw [Condition.comparesHeight, Condition.comparesHeight, h.tag, h.op]

theorem fixesHeight_eq (h : c.SameHeight c') : c.fixesHeight = c'.fixesHeight := by
  rw [fixesHeight, fixesHeight, h.tag, h.op]

theorem limitsHeight_eq (h : c.SameHeight c') : c.limitsHeight = c'.limitsHeight := by
  rw [limitsHeight, limitsHeight, h.tag, h.op]

theorem height?_eq (h : c.SameHeight c') : c.height? = c'.height? := by
  rw [height?, height?, h.height]

theorem limit?_eq (h : c.SameHeight c') : c.limit? = c'.limit? := by
  rw [limit?, limit?, heightLimit?, heightLimit?, h.tag, h.op, h.height?_eq]

/-- Put in place of one another, the conditions have the same fault. -/
theorem firstFault?_eq (h : c.SameHeight c') {kind : Condition → Bool} (hkind : kind c = kind c') :
    firstFault? kind (before ++ c :: after) = firstFault? kind (before ++ c' :: after) := by
  have hfault : c.heightFault? = c'.heightFault? := by
    rw [heightFault?, heightFault?, h.height]
  unfold firstFault?
  rw [List.filter_append, List.filter_append, List.filter_cons, List.filter_cons, hkind]
  split
  · simp only [List.findSome?_append, List.findSome?_cons, hfault]
  · rfl

theorem fixed?_eq (h : c.SameHeight c') :
    fixed? (before ++ c :: after) = fixed? (before ++ c' :: after) := by
  unfold fixed?
  rw [List.filter_append, List.filter_append, List.filter_cons, List.filter_cons, h.fixesHeight_eq]
  split
  · rw [List.getLast?_append, List.getLast?_append, List.getLast?_cons, List.getLast?_cons]
    cases (after.filter fixesHeight).getLast? with
    | none => simpa using h.height?_eq
    | some c'' => rfl
  · rfl

theorem filters_eq (h : c.SameHeight c') :
    Query.filters ⟨before ++ c :: after⟩ = Query.filters ⟨before ++ c' :: after⟩ := by
  have hc := h.comparesHeight
  have hc' := h.comparesHeight_eq.symm.trans hc
  simp [Query.filters, hc, hc']

theorem heightRange_eq (h : c.SameHeight c') :
    Query.heightRange ⟨before ++ c :: after⟩ = Query.heightRange ⟨before ++ c' :: after⟩ := by
  simp only [Query.heightRange, List.filterMap_append, List.filterMap_cons, h.limit?_eq]

/-- **Of a condition that compares the height only the height counts**: another argument that denotes
the same one leads to the same plan or the same failure. -/
theorem compileWithin_eq (h : c.SameHeight c') (limit ceiling : UInt16) :
    Plan.compileWithin ⟨before ++ c :: after⟩ limit ceiling =
      Plan.compileWithin ⟨before ++ c' :: after⟩ limit ceiling := by
  have hmissing : Query.missingValue? ⟨before ++ c :: after⟩ =
      Query.missingValue? ⟨before ++ c' :: after⟩ := by
    rw [Query.missingValue?, Query.missingValue?, h.filters_eq]
  rw [Plan.compileWithin_eq, Plan.compileWithin_eq, Query.fault?, Query.fault?,
    h.firstFault?_eq h.fixesHeight_eq, h.firstFault?_eq h.limitsHeight_eq, hmissing, h.heightRange_eq,
    h.fixed?_eq, h.filters_eq]

end SameHeight

/-- An argument that is no height is refused as such. -/
theorem height_eq_error {c : Condition} {failure : Failure} (h : c.height = .error failure) :
    ∃ bound, failure = .heightNotIntegral bound := by
  unfold height at h
  split at h
  · exact ⟨_, (Literal.toInt64_eq_error.1 h).1⟩
  · split at h
    · exact ⟨_, (Literal.toInt64_eq_error.1 h).1⟩
    · exact ⟨_, (Except.error.inj h).symm⟩
  · exact ⟨_, (Except.error.inj h).symm⟩

theorem firstFault?_eq_some {kind : Condition → Bool} {cs : List Condition} {failure : Failure}
    (h : firstFault? kind cs = some failure) : ∃ bound, failure = .heightNotIntegral bound := by
  obtain ⟨c, -, hc⟩ := List.exists_of_findSome?_eq_some h
  exact height_eq_error (heightFault?_eq_some.1 hc)

variable {o : Comparison} {tag s : String}

/-- A numeral denotes the same height as a text and as a number. -/
theorem height_text (hs : Decimal.IsNumeral s.toList) :
    (compare o tag (.text s)).height = (compare o tag (.number ⟨s⟩)).height := by
  simp only [height, compare, Literal.parse?_eq_some.2 ⟨hs, rfl⟩]

/-- A text that is no numeral denotes no height. -/
theorem height_text_eq_error (hs : ¬ Decimal.IsNumeral s.toList) :
    (compare o tag (.text s)).height = .error (.heightNotIntegral s) := by
  have hparse : Literal.parse? s = none :=
    Option.eq_none_iff_forall_ne_some.2 fun n hn => hs (Literal.parse?_eq_some.1 hn).1
  simp only [height, compare, hparse]

theorem comparesHeight_compare (o : Comparison) (arg : Argument) :
    (compare o txHeightKey arg).comparesHeight = true := by
  simp [comparesHeight, compare, Operator.comparison?]

end Condition

namespace Query

variable {q : Query}

/-- If a comparison of the height has none, the query fails for want of a height. -/
theorem fault?_of_height_eq_error {c : Condition} (hc : c ∈ q.conditions)
    (hcompares : c.comparesHeight = true) {failure : Failure} (hheight : c.height = .error failure) :
    ∃ bound, q.fault? = some (.heightNotIntegral bound) := by
  have hnone : ∀ kind : Condition → Bool, kind c = true →
      Condition.firstFault? kind q.conditions ≠ none := by
    intro kind hkind hnone
    obtain ⟨value, hvalue⟩ := Condition.firstFault?_eq_none.1 hnone c hc hkind
    exact nomatch hheight.symm.trans hvalue
  unfold fault?
  cases hfixes : Condition.firstFault? Condition.fixesHeight q.conditions with
  | some failure =>
    obtain ⟨bound, rfl⟩ := Condition.firstFault?_eq_some hfixes
    exact ⟨bound, rfl⟩
  | none =>
    cases hlimits : Condition.firstFault? Condition.limitsHeight q.conditions with
    | some failure =>
      obtain ⟨bound, rfl⟩ := Condition.firstFault?_eq_some hlimits
      exact ⟨bound, rfl⟩
    | none =>
      rw [Condition.comparesHeight_eq, Bool.or_eq_true] at hcompares
      exact absurd hcompares (not_or.2 ⟨fun h => hnone _ h hfixes, fun h => hnone _ h hlimits⟩)

/-- A query with a comparison of the height among its conditions. -/
def comparing (before : List Condition) (o : Comparison) (arg : Argument)
    (after : List Condition) : Query := ⟨before ++ .compare o txHeightKey arg :: after⟩

end Query

namespace Plan

open Decimal

/-- Arguments that denote the same height, or fail to denote one in the same way, may stand for one
another. -/
theorem compile_comparing_congr {before after : List Condition} {o : Comparison}
    {arg arg' : Argument} (h : (Condition.compare o txHeightKey arg).height =
      (Condition.compare o txHeightKey arg').height) (limit ceiling : UInt16) :
    compileWithin (.comparing before o arg after) limit ceiling =
      compileWithin (.comparing before o arg' after) limit ceiling := by
  have hsame : (Condition.compare o txHeightKey arg).SameHeight (.compare o txHeightKey arg') :=
    ⟨Condition.comparesHeight_compare o arg, rfl, rfl, h⟩
  exact hsame.compileWithin_eq limit ceiling

/-- A text that is no numeral keeps a query from being compiled. -/
theorem compile_text_eq_error {s : String} (hs : ¬ IsNumeral s.toList) (before : List Condition)
    (o : Comparison) (after : List Condition) (limit ceiling : UInt16) :
    ∃ bound, compileWithin (.comparing before o (.text s) after) limit ceiling =
      .error (.heightNotIntegral bound) := by
  have hmem : Condition.compare o txHeightKey (.text s) ∈
      (Query.comparing before o (.text s) after).conditions :=
    List.mem_append_right before List.mem_cons_self
  obtain ⟨bound, hfault⟩ := Query.fault?_of_height_eq_error hmem
    (Condition.comparesHeight_compare o _) (Condition.height_text_eq_error hs)
  exact ⟨bound, by rw [compileWithin_eq, hfault]⟩

/-- **A height in quotes and the same without.** A query compiles to the same plan, or fails in the
same way, whether a height in it is given as a text or as a number, unless the text writes an integer
with a plus sign or with nothing behind the point. The text is then refused, as all are that are no
numerals, and the number is converted all the same. -/
theorem compile_quoted_height (s : String) :
    ((∀ before o after limit ceiling,
        compileWithin (.comparing before o (.text s) after) limit ceiling =
          compileWithin (.comparing before o (.number ⟨s⟩) after) limit ceiling) ↔
      ∀ v : Int64, WritesInteger s.toList v.toInt →
        s.toList.head? ≠ some '+' ∧ s.toList.getLast? ≠ some '.') ∧
    ∀ before o after limit ceiling,
      (¬ IsNumeral s.toList → ∃ bound,
        compileWithin (.comparing before o (.text s) after) limit ceiling =
          .error (.heightNotIntegral bound)) ∧
      ∀ v : Int64, WritesInteger s.toList v.toInt →
        compileWithin (.comparing before o (.number ⟨s⟩) after) limit ceiling =
          compileWithin (.comparing before o (.number (.ofInt64 v)) after) limit ceiling := by
  refine ⟨⟨fun hsame v hv => ?_, fun hall before o after limit ceiling => ?_⟩,
    fun before o after limit ceiling =>
      ⟨fun hs => compile_text_eq_error hs before o after limit ceiling, fun v hv => ?_⟩⟩
  · -- Were the text no numeral, the query with nothing else in it would tell the two apart.
    rw [← hv.isNumeral_iff]
    by_contra hs
    have hcompiles : Query.IsCompilable (.comparing [] .eq (.number ⟨s⟩) []) := by
      refine ⟨fun c hc _ => ?_, fun c hc hother => ?_⟩ <;> obtain rfl := List.mem_singleton.1 hc
      · exact ⟨v, Literal.toInt64_eq_ok.2 hv⟩
      · exact nomatch (Condition.comparesHeight_compare .eq _).symm.trans hother
    obtain ⟨p, hp⟩ : ∃ p, compileWithin (.comparing [] .eq (.number ⟨s⟩) []) 0 0 = .ok p :=
      exists_compileWithin.2 hcompiles
    obtain ⟨bound, hquoted⟩ := compile_text_eq_error hs [] .eq [] 0 0
    exact nomatch hquoted.symm.trans ((hsame [] .eq [] 0 0).trans hp)
  · apply compile_comparing_congr
    by_cases hs : IsNumeral s.toList
    · exact Condition.height_text hs
    · rw [Condition.height_text_eq_error hs]
      exact (Literal.toInt64_eq_error.2
        ⟨rfl, fun v hv => hs (hv.isNumeral_iff.2 (hall v hv))⟩).symm
  · apply compile_comparing_congr
    exact (Literal.toInt64_eq_ok.2 hv).trans (Literal.toInt64_ofInt64 v).symm

/-- The general statement at three texts: a height with zeros behind its point means the same in
quotes, and one with a plus sign or with nothing behind the point counts only without. -/
theorem compile_quoted_height_texts :
    (∀ before o after limit ceiling,
        compileWithin (.comparing before o (.text "-0.00") after) limit ceiling =
          compileWithin (.comparing before o (.number ⟨"-0.00"⟩) after) limit ceiling) ∧
      ∀ s ∈ ["+5", "5."], ¬ IsNumeral s.toList ∧ WritesInteger s.toList (5 : Int64).toInt ∧
        ∀ before o after limit ceiling,
          (∃ bound, compileWithin (.comparing before o (.text s) after) limit ceiling =
            .error (.heightNotIntegral bound)) ∧
          compileWithin (.comparing before o (.number ⟨s⟩) after) limit ceiling =
            compileWithin (.comparing before o (.number (.ofInt64 5)) after) limit ceiling := by
  refine ⟨(compile_quoted_height "-0.00").1.2 fun _ _ => by decide, fun s hs => ?_⟩
  have hwrites : WritesInteger s.toList (5 : Int64).toInt := by
    apply Literal.toInt64_eq_ok.1
    rcases List.mem_pair.1 hs with rfl | rfl <;> decide +kernel
  have hnumeral : ¬ IsNumeral s.toList := by
    rw [hwrites.isNumeral_iff]
    rcases List.mem_pair.1 hs with rfl | rfl <;> decide
  refine ⟨hnumeral, hwrites, fun before o after limit ceiling => ?_⟩
  obtain ⟨hquoted, hbare⟩ := (compile_quoted_height s).2 before o after limit ceiling
  exact ⟨hquoted hnumeral, hbare 5 hwrites⟩

/-- `1.` is refused as a height in quotes. As a number, which can be read from JSON, it is the height
one. -/
theorem compile_number_ending_in_point :
    Json.as? (.object [("Number", .text "1.")]) = some (Argument.number ⟨"1."⟩) ∧
      compileWithin (.comparing [] .eq (.text "1.") []) 10 Plan.ceiling =
        .error (.heightNotIntegral "1.") ∧
      compileWithin (.comparing [] .eq (.number ⟨"1."⟩) []) 10 Plan.ceiling =
        .ok ⟨.exact 1, [], 10⟩ := by
  refine ⟨rfl, ?_, ?_⟩ <;> decide +kernel

end Plan
end TxIndex
