import Mathlib.Data.List.TakeWhile
import TxIndex.Decimal.Literal

/-! # Numerals

What the test for a number accepts, as a grammar: an optional minus sign, digits, and perhaps a
point with more digits (`Decimal.IsNumeral`). The test of stored values reads no further than the
first NUL, so a value passes if what stands before its first NUL is a numeral
(`Decimal.isNumeric_iff`). Integers are written as numerals and read back from them
(`Literal.toInt64_ofInt64`).

Splitting at the first point is undone by putting the parts together again
(`Decimal.splitPoint_spec`), so the test, which splits first and looks at the parts then, is
compared with the grammar part by part. A numeral has neither a NUL nor a plus sign nor a point at
its end, which is what later theorems use of it. -/
namespace TxIndex
namespace Decimal

/-- A run of digits: at least one, and nothing else. -/
def IsRun (cs : List Char) : Prop := cs ≠ [] ∧ ∀ c ∈ cs, c.isDigit = true

/-- The characters are a decimal number. -/
def IsNumeral (cs : List Char) : Prop :=
  ∃ sign whole fraction, (sign = [] ∨ sign = ['-']) ∧ IsRun whole ∧
    (fraction = [] ∨ ∃ digits, IsRun digits ∧ fraction = '.' :: digits) ∧
    cs = sign ++ (whole ++ fraction)

theorem isDigits_iff {cs : List Char} : isDigits cs = true ↔ IsRun cs := by
  simp [isDigits, IsRun]

/-- A run of digits has no character but digits. -/
theorem IsRun.not_mem {cs : List Char} (h : IsRun cs) {c : Char} (hc : c.isDigit = false) :
    c ∉ cs := fun hmem => nomatch hc.symm.trans (h.2 c hmem)

theorem IsRun.exists_cons {cs : List Char} (h : IsRun cs) :
    ∃ c rest, cs = c :: rest ∧ c.isDigit = true := by
  obtain ⟨c, rest, rfl⟩ := List.exists_cons_of_ne_nil h.1
  exact ⟨c, rest, rfl, h.2 c List.mem_cons_self⟩

/-- A run of digits ends with one. -/
theorem IsRun.exists_last {cs : List Char} (h : IsRun cs) :
    ∃ front d, cs = front ++ [d] ∧ d.isDigit = true :=
  ⟨cs.dropLast, cs.getLast h.1, (List.dropLast_concat_getLast h.1).symm,
    h.2 _ (List.getLast_mem h.1)⟩

theorem IsRun.ne_point {cs : List Char} (h : IsRun cs) : ∀ c ∈ cs, decide (c ≠ '.') = true := by
  intro c hc
  apply decide_eq_true
  rintro rfl
  exact absurd (h.2 _ hc) (by decide)

theorem splitPoint_of_ne_point {cs : List Char} (h : ∀ c ∈ cs, decide (c ≠ '.') = true) :
    splitPoint cs = (cs, none) := by
  rw [splitPoint, List.takeWhile_eq_self_iff.2 h, List.dropWhile_eq_nil_iff.2 h]

theorem splitPoint_run {whole : List Char} (h : IsRun whole) :
    splitPoint whole = (whole, none) := splitPoint_of_ne_point h.ne_point

theorem splitPoint_append_point {front : List Char}
    (h : ∀ c ∈ front, decide (c ≠ '.') = true) (fraction : List Char) :
    splitPoint (front ++ '.' :: fraction) = (front, some fraction) := by
  rw [splitPoint, List.takeWhile_append_of_pos h, List.dropWhile_append_of_pos h]
  simp

theorem splitPoint_point {whole : List Char} (h : IsRun whole) (fraction : List Char) :
    splitPoint (whole ++ '.' :: fraction) = (whole, some fraction) :=
  splitPoint_append_point h.ne_point fraction

theorem dropMinus_run {whole : List Char} (h : IsRun whole) (rest : List Char) :
    dropMinus (whole ++ rest) = whole ++ rest := by
  cases whole with
  | nil => exact absurd rfl h.1
  | cons c cs =>
    have hc := h.2 c List.mem_cons_self
    unfold dropMinus
    split
    · rename_i heq
      obtain ⟨rfl, -⟩ := List.cons.inj heq
      exact absurd hc (by decide)
    · rfl

theorem exists_sign (cs : List Char) :
    ∃ sign, (sign = [] ∨ sign = ['-']) ∧ cs = sign ++ dropMinus cs := by
  unfold dropMinus
  split
  · exact ⟨['-'], .inr rfl, rfl⟩
  · exact ⟨[], .inl rfl, rfl⟩

/-- What stands before and after the first point make up the text. -/
theorem splitPoint_spec (cs : List Char) : cs = match splitPoint cs with
    | (whole, none) => whole
    | (whole, some fraction) => whole ++ '.' :: fraction := by
  have happend := List.takeWhile_append_dropWhile (p := (· ≠ '.')) (l := cs)
  unfold splitPoint
  cases hdrop : cs.dropWhile (· ≠ '.') with
  | nil =>
    rw [hdrop, List.append_nil] at happend
    exact happend.symm
  | cons c rest =>
    -- What is dropped ends where the test fails, at a point.
    have hc : c = '.' := by
      have hne : cs.dropWhile (· ≠ '.') ≠ [] := hdrop ▸ List.cons_ne_nil _ _
      have := List.head_dropWhile_not (· ≠ '.') hne
      simp only [hdrop, List.head_cons] at this
      simpa using this
    rw [hdrop, hc] at happend
    exact happend.symm

/-- The test for a literal accepts the numerals and nothing else. -/
theorem isLiteral_iff {cs : List Char} : isLiteral cs = true ↔ IsNumeral cs := by
  constructor
  · intro h
    obtain ⟨sign, hsign, hcs⟩ := exists_sign cs
    have hsplit := splitPoint_spec (dropMinus cs)
    unfold isLiteral at h
    rcases hp : splitPoint (dropMinus cs) with ⟨whole, _ | fraction⟩ <;>
      simp only [hp] at h hsplit
    · refine ⟨sign, whole, [], hsign, isDigits_iff.1 h, .inl rfl, ?_⟩
      rw [List.append_nil, ← hsplit, ← hcs]
    · obtain ⟨hw, hf⟩ := Bool.and_eq_true_iff.1 h
      refine ⟨sign, whole, '.' :: fraction, hsign, isDigits_iff.1 hw,
        .inr ⟨fraction, isDigits_iff.1 hf, rfl⟩, ?_⟩
      rw [← hsplit, ← hcs]
  · rintro ⟨sign, whole, fraction, hsign, hw, hf, rfl⟩
    -- A minus sign is dropped, and without one nothing is, digits leading.
    have hbody : dropMinus (sign ++ (whole ++ fraction)) = whole ++ fraction := by
      rcases hsign with rfl | rfl
      · exact dropMinus_run hw fraction
      · rfl
    unfold isLiteral
    rw [hbody]
    rcases hf with rfl | ⟨digits, hd, rfl⟩
    · rw [List.append_nil, splitPoint_run hw]
      exact isDigits_iff.2 hw
    · rw [splitPoint_point hw]
      exact Bool.and_eq_true_iff.2 ⟨isDigits_iff.2 hw, isDigits_iff.2 hd⟩

/-- The part of a text before its first NUL. -/
def beforeNul (cs : List Char) : List Char := cs.takeWhile (· ≠ '\x00')

theorem isNumeric_iff {cs : List Char} : isNumeric cs = true ↔ IsNumeral (beforeNul cs) :=
  isLiteral_iff

/-- A text without NUL is all that stands before its first NUL. -/
theorem beforeNul_eq_self {cs : List Char} (h : '\x00' ∉ cs) : beforeNul cs = cs :=
  List.takeWhile_eq_self_iff.2 fun _ hc => decide_eq_true fun heq => h (heq ▸ hc)

/-- No numeral contains a NUL. -/
theorem IsNumeral.nul_not_mem {cs : List Char} (h : IsNumeral cs) : '\x00' ∉ cs := by
  obtain ⟨sign, whole, fraction, hsign, hw, hf, rfl⟩ := h
  have hrun : ∀ {ds : List Char}, IsRun ds → '\x00' ∉ ds := fun hd hmem =>
    absurd (hd.2 _ hmem) (by decide)
  simp only [List.mem_append, not_or]
  refine ⟨?_, hrun hw, ?_⟩
  · rcases hsign with rfl | rfl <;> decide
  · rcases hf with rfl | ⟨digits, hd, rfl⟩
    · exact List.not_mem_nil
    · simpa using hrun hd

/-- No numeral begins with a plus sign. -/
theorem IsNumeral.head?_ne_plus {cs : List Char} (h : IsNumeral cs) : cs.head? ≠ some '+' := by
  obtain ⟨sign, whole, fraction, hsign, hw, -, rfl⟩ := h
  obtain ⟨c, rest, rfl, hc⟩ := hw.exists_cons
  rcases hsign with rfl | rfl
  · intro hhead
    obtain rfl : c = '+' := Option.some.inj hhead
    exact absurd hc (by decide)
  · exact fun hhead => absurd (Option.some.inj hhead) (by decide)

/-- No numeral ends with a point. -/
theorem IsNumeral.getLast?_ne_point {cs : List Char} (h : IsNumeral cs) :
    cs.getLast? ≠ some '.' := by
  obtain ⟨sign, whole, fraction, -, hw, hf, rfl⟩ := h
  have hend : ∃ front d, sign ++ (whole ++ fraction) = front ++ [d] ∧ d.isDigit = true := by
    rcases hf with rfl | ⟨digits, hd, rfl⟩
    · obtain ⟨front, d, rfl, hdigit⟩ := hw.exists_last
      exact ⟨sign ++ front, d, by simp, hdigit⟩
    · obtain ⟨front, d, rfl, hdigit⟩ := hd.exists_last
      exact ⟨sign ++ (whole ++ '.' :: front), d, by simp, hdigit⟩
  obtain ⟨front, d, hend, hdigit⟩ := hend
  rw [hend, List.getLast?_concat]
  rintro ⟨rfl⟩
  exact absurd hdigit (by decide)

/-! ## Integers -/

/-- An integer is written by its digits, behind a sign if it is negative. -/
theorem toList_toString (n : Int) : (toString n).toList =
    if n < 0 then '-' :: Nat.toDigits 10 n.natAbs else Nat.toDigits 10 n.natAbs := by
  cases n with
  | ofNat n =>
    have hn : ¬ Int.ofNat n < 0 := by simp
    rw [if_neg hn]
    exact Nat.toList_repr
  | negSucc n =>
    rw [if_pos (Int.negSucc_lt_zero n)]
    show ("-" ++ Nat.repr (n + 1)).toList = _
    rw [String.toList_append, Nat.toList_repr]
    rfl

theorem digitsValue_toDigits (n : Nat) : digitsValue (Nat.toDigits 10 n) = n :=
  Nat.ofDigitChars_ten_toDigits

theorem isRun_toDigits (n : Nat) : IsRun (Nat.toDigits 10 n) :=
  ⟨Nat.toDigits_ne_nil, fun _ => Nat.isDigit_of_mem_toDigits (by decide) (by decide)⟩

theorem isNumeral_toString (n : Int) : IsNumeral (toString n).toList := by
  rw [toList_toString]
  split
  · exact ⟨['-'], _, [], .inr rfl, isRun_toDigits n.natAbs, .inl rfl, by simp⟩
  · exact ⟨[], _, [], .inl rfl, isRun_toDigits n.natAbs, .inl rfl, by simp⟩

theorem splitPoint_toString (n : Int) :
    splitPoint (toString n).toList = ((toString n).toList, none) := by
  apply splitPoint_of_ne_point
  rw [toList_toString]
  split
  · exact List.forall_mem_cons.2 ⟨by decide, (isRun_toDigits _).ne_point⟩
  · exact (isRun_toDigits _).ne_point

theorem integer?_run {cs : List Char} (h : IsRun cs) :
    integer? cs = some (digitsValue cs : Int) := by
  have hhead : ∀ c rest, cs = c :: rest → c.isDigit = true := fun c rest heq =>
    h.2 c (heq ▸ List.mem_cons_self)
  unfold integer?
  split
  · exact absurd (hhead _ _ rfl) (by decide)
  · exact absurd (hhead _ _ rfl) (by decide)
  · exact if_pos (isDigits_iff.2 h)

/-- An integer is read back from what is written. -/
theorem integer?_toString (n : Int) : integer? (toString n).toList = some n := by
  rw [toList_toString]
  split
  · rw [integer?, if_pos (isDigits_iff.2 (isRun_toDigits _)), digitsValue_toDigits]
    exact congrArg some (by omega)
  · rw [integer?_run (isRun_toDigits _), digitsValue_toDigits]
    exact congrArg some (by omega)

end Decimal

namespace Literal

/-- The literal of an integer of 64 bits is read as that integer. -/
theorem toInt64_ofInt64 (n : Int64) : (ofInt64 n).toInt64 = .ok n := by
  have hvalue : Decimal.int64? n.toInt = some n := by
    rw [Decimal.int64?, if_pos ⟨n.minValue_le_toInt, n.toInt_le⟩, Int64.ofInt_toInt]
  have hread : (ofInt64 n).toInt64? = some n := by
    simp only [toInt64?, ofInt64, Decimal.splitPoint_toString, Decimal.integer?_toString,
      Option.bind_some, hvalue]
  rw [toInt64, hread]

/-- What is accepted as a literal are the numerals, as they are written. -/
theorem parse?_eq_some {s : String} {n : Literal} :
    parse? s = some n ↔ Decimal.IsNumeral s.toList ∧ n = ⟨s⟩ := by
  unfold parse?
  split
  · next h => simp [Decimal.isLiteral_iff.1 h, eq_comm]
  · next h => simp [mt Decimal.isLiteral_iff.2 h]

theorem parse?_ofInt64 (n : Int64) : parse? (ofInt64 n).text = some (ofInt64 n) :=
  if_pos (Decimal.isLiteral_iff.2 (Decimal.isNumeral_toString _))

end Literal
end TxIndex
