import TxIndex.Proofs.Decimal.Exact

/-! # Integers as decimal numbers

Which texts are read as integers, and which integers they are (`Decimal.WritesInteger`). The reading
asks for less than a numeral: a plus sign may lead, and the zeros behind a point may be missing
(`Literal.toInt64_eq_ok`). For a numeral it is exact (`Literal.toInt64_exact`): the number that is
written is an integer exactly if nothing but zeros follows its point.

The reader of integers is first described by what it accepts, sign and zeros included
(`Literal.toInt64?_eq_some`); this part speaks of characters only. What the characters write is then
compared with an integer: digits behind a point write less than one, so they must write zero, and
they do so only if each of them does (`Decimal.digitsValue_eq_zero`). -/
namespace TxIndex
namespace Decimal

/-- The text writes an integer by its digits, before which a sign of either kind may stand. -/
def WritesSigned (cs : List Char) (z : ℤ) : Prop :=
  ∃ sign whole, (sign = [] ∨ sign = ['+'] ∨ sign = ['-']) ∧ IsRun whole ∧ cs = sign ++ whole ∧
    z = if sign = ['-'] then -(digitsValue whole : ℤ) else digitsValue whole

/-- The text writes an integer behind which a point may stand, and then nothing but zeros. -/
def WritesInteger (cs : List Char) (z : ℤ) : Prop :=
  ∃ front fraction, WritesSigned front z ∧
    (fraction = [] ∨ ∃ zeros, (∀ c ∈ zeros, c = '0') ∧ fraction = '.' :: zeros) ∧
    cs = front ++ fraction

variable {cs sign whole fraction digits : List Char} {z : ℤ}

/-! ## Digits and their value -/

theorem digitsValue_cons (c : Char) (cs : List Char) :
    digitsValue (c :: cs) = (c.toNat - '0'.toNat) * 10 ^ cs.length + digitsValue cs := by
  have hone : digitsValue [c] = c.toNat - '0'.toNat := by simp [digitsValue]
  rw [← hone]
  exact digitsValue_append [c] cs

/-- Digits write less than a one with as many zeros. -/
theorem digitsValue_lt (h : ∀ c ∈ cs, c.isDigit = true) : digitsValue cs < 10 ^ cs.length := by
  induction cs with
  | nil => decide
  | cons c cs ih =>
    obtain ⟨hc, hcs⟩ := List.forall_mem_cons.1 h
    have hdigit : c.toNat - '0'.toNat ≤ 9 := by
      rw [Nat.sub_le_iff_le_add]
      exact (Char.isDigit_iff_toNat.1 hc).2
    have hrest := ih hcs
    rw [digitsValue_cons, List.length_cons, pow_succ]
    nlinarith

/-- Digits write zero if each of them does, and not otherwise. -/
theorem digitsValue_eq_zero (h : ∀ c ∈ cs, c.isDigit = true) :
    digitsValue cs = 0 ↔ ∀ c ∈ cs, c = '0' := by
  induction cs with
  | nil => simp [digitsValue]
  | cons c cs ih =>
    obtain ⟨hc, hcs⟩ := List.forall_mem_cons.1 h
    have hdigit : c.toNat - '0'.toNat = 0 ↔ c = '0' := by
      rw [← Char.toNat_inj, Nat.sub_eq_zero_iff_le]
      exact ⟨fun hle => Nat.le_antisymm hle (Char.isDigit_iff_toNat.1 hc).1, fun heq => heq.le⟩
    have hpos : 10 ^ cs.length ≠ 0 := by positivity
    rw [digitsValue_cons, Nat.add_eq_zero_iff, Nat.mul_eq_zero, or_iff_left hpos, hdigit, ih hcs,
      List.forall_mem_cons]

/-- What is less than one and added to a whole number gives an integer only if it is zero. -/
theorem fraction_eq_zero {w f k : ℕ} (hf : f < 10 ^ k) (h : (w + f / 10 ^ k : ℚ) = z) :
    f = 0 ∧ z = w := by
  have hscaled : (w * 10 ^ k + f : ℤ) = z * 10 ^ k := by
    have hpos : (10 ^ k : ℚ) ≠ 0 := by positivity
    field_simp at h
    rw [mul_comm z]
    exact_mod_cast h
  have hlt : (f : ℤ) < 10 ^ k := by exact_mod_cast hf
  have hz : z - w = 0 := by
    by_contra hne
    rcases lt_or_gt_of_ne hne with hneg | hpos <;> nlinarith
  have hzw : z = w := by omega
  subst hzw
  exact ⟨by omega, rfl⟩

/-! ## The integer that is written -/

theorem writtenSize_run (hw : IsRun whole) : writtenSize (splitPoint whole) = digitsValue whole := by
  rw [splitPoint_run hw]
  rfl

theorem writtenSize_point (hw : IsRun whole) (fraction : List Char) :
    writtenSize (splitPoint (whole ++ '.' :: fraction)) =
      digitsValue whole + digitsValue fraction / 10 ^ fraction.length := by
  rw [splitPoint_point hw]
  rfl

/-- Without a plus sign, what stands before the digits is the sign of a numeral. -/
theorem sign_of_head?_ne_plus {rest : List Char} (hsign : sign = [] ∨ sign = ['+'] ∨ sign = ['-'])
    (hplus : (sign ++ rest).head? ≠ some '+') : sign = [] ∨ sign = ['-'] := by
  rcases hsign with rfl | rfl | rfl
  · exact .inl rfl
  · exact absurd rfl hplus
  · exact .inr rfl

/-- A plus sign apart, a text that writes an integer writes it as a number. -/
theorem WritesInteger.written_eq (h : WritesInteger cs z) (hplus : cs.head? ≠ some '+') :
    written cs = z := by
  obtain ⟨_, fraction, ⟨sign, whole, hsign, hw, rfl, rfl⟩, hf, rfl⟩ := h
  rw [List.append_assoc] at hplus ⊢
  have hsize : writtenSize (splitPoint (whole ++ fraction)) = digitsValue whole := by
    rcases hf with rfl | ⟨zeros, hzeros, rfl⟩
    · rw [List.append_nil, writtenSize_run hw]
    · have hdigits : ∀ c ∈ zeros, c.isDigit = true := fun c hc => hzeros c hc ▸ by decide
      rw [writtenSize_point hw, (digitsValue_eq_zero hdigits).2 hzeros]
      simp
  rw [written_numeral (sign_of_head?_ne_plus hsign hplus) hw, hsize]
  split <;> simp

/-- A numeral for an integer has nothing but zeros behind its point. -/
theorem IsNumeral.writesInteger (h : IsNumeral cs) (hz : written cs = z) :
    WritesInteger cs z := by
  obtain ⟨sign, whole, fraction, hsign, hw, hf, rfl⟩ := h
  -- The size is the integer without its sign, so the fraction adds nothing to the whole digits.
  have hsize : ∃ n : ℤ, writtenSize (splitPoint (whole ++ fraction)) = n ∧
      z = if sign = ['-'] then -n else n := by
    rw [written_numeral hsign hw] at hz
    split at hz
    · next hminus =>
      refine ⟨-z, ?_, by rw [if_pos hminus, neg_neg]⟩
      rw [Int.cast_neg, ← hz, neg_neg]
    · next hplus => exact ⟨z, hz, by rw [if_neg hplus]⟩
  obtain ⟨n, hn, rfl⟩ := hsize
  rw [← List.append_assoc]
  rcases hf with rfl | ⟨digits, hd, rfl⟩
  · rw [List.append_nil, writtenSize_run hw] at hn
    obtain rfl : (digitsValue whole : ℤ) = n := by exact_mod_cast hn
    exact ⟨_, [], ⟨sign, whole, hsign.imp_right .inr, hw, rfl, rfl⟩, .inl rfl, rfl⟩
  · rw [writtenSize_point hw] at hn
    obtain ⟨hzero, rfl⟩ := fraction_eq_zero (digitsValue_lt hd.2) hn
    exact ⟨_, '.' :: digits, ⟨sign, whole, hsign.imp_right .inr, hw, rfl, rfl⟩,
      .inr ⟨digits, (digitsValue_eq_zero hd.2).1 hzero, rfl⟩, rfl⟩

/-- A numeral writes an integer exactly if its number is one. -/
theorem IsNumeral.writesInteger_iff (h : IsNumeral cs) : WritesInteger cs z ↔ written cs = z :=
  ⟨fun hz => hz.written_eq h.head?_ne_plus, h.writesInteger⟩

/-- A text that writes an integer is a numeral, unless a plus sign leads or nothing follows the
point. -/
theorem WritesInteger.isNumeral_iff (h : WritesInteger cs z) :
    IsNumeral cs ↔ cs.head? ≠ some '+' ∧ cs.getLast? ≠ some '.' := by
  refine ⟨fun hcs => ⟨hcs.head?_ne_plus, hcs.getLast?_ne_point⟩, ?_⟩
  rintro ⟨hplus, hpoint⟩
  obtain ⟨_, fraction, ⟨sign, whole, hsign, hw, rfl, -⟩, hf, rfl⟩ := h
  rw [List.append_assoc] at hplus
  refine ⟨sign, whole, fraction, sign_of_head?_ne_plus hsign hplus, hw, ?_,
    List.append_assoc _ _ _⟩
  rcases hf with rfl | ⟨zeros, hzeros, rfl⟩
  · exact .inl rfl
  · refine .inr ⟨zeros, ⟨?_, fun c hc => hzeros c hc ▸ by decide⟩, rfl⟩
    rintro rfl
    exact hpoint List.getLast?_concat

/-! ## Reading integers -/

theorem integer?_eq_some : integer? cs = some z ↔ WritesSigned cs z := by
  constructor
  · intro h
    unfold integer? at h
    split at h <;> split at h
    · next digits hd => exact ⟨['-'], digits, by simp, isDigits_iff.1 hd, rfl, by simpa using h.symm⟩
    · cases h
    · next digits hd => exact ⟨['+'], digits, by simp, isDigits_iff.1 hd, rfl, by simpa using h.symm⟩
    · cases h
    · next hd => exact ⟨[], cs, by simp, isDigits_iff.1 hd, rfl, by simpa using h.symm⟩
    · cases h
  · rintro ⟨sign, whole, rfl | rfl | rfl, hw, rfl, rfl⟩
    · exact integer?_run hw
    · exact if_pos (isDigits_iff.2 hw)
    · exact if_pos (isDigits_iff.2 hw)

theorem int64?_eq_some {v : Int64} : int64? z = some v ↔ z = v.toInt := by
  unfold int64?
  constructor
  · intro h
    split at h
    · next hz =>
      obtain rfl := Option.some.inj h
      rw [Int64.toInt_minValue, Int64.toInt_maxValue] at hz
      exact (Int64.toInt_ofInt_of_le hz.1 (by omega)).symm
    · cases h
  · rintro rfl
    rw [if_pos ⟨v.minValue_le_toInt, v.toInt_le⟩, Int64.ofInt_toInt]

end Decimal

namespace Literal

open Decimal

variable {n : Literal} {s : String}

theorem toInt64?_eq_some {v : Int64} :
    n.toInt64? = some v ↔ WritesInteger n.text.toList v.toInt := by
  have hword : ∀ front, (integer? front).bind int64? = some v ↔ WritesSigned front v.toInt := by
    intro front
    simp [Option.bind_eq_some_iff, integer?_eq_some, int64?_eq_some]
  constructor
  · intro h
    have hsplit := splitPoint_spec n.text.toList
    unfold toInt64? at h
    rcases hparts : splitPoint n.text.toList with ⟨front, _ | fraction⟩ <;>
      simp only [hparts] at h hsplit
    · exact ⟨front, [], (hword front).1 h, .inl rfl, by rw [hsplit, List.append_nil]⟩
    · split at h
      · next hzeros =>
        have hzeros : ∀ c ∈ fraction, c = '0' := by simpa using hzeros
        exact ⟨front, '.' :: fraction, (hword front).1 h, .inr ⟨fraction, hzeros, rfl⟩, hsplit⟩
      · cases h
  · rintro ⟨front, fraction, hfront, hf, htext⟩
    have hpoint : ∀ c ∈ front, decide (c ≠ '.') = true := by
      obtain ⟨sign, whole, hsign, hw, rfl, -⟩ := hfront
      refine List.forall_mem_append.2 ⟨?_, hw.ne_point⟩
      rcases hsign with rfl | rfl | rfl <;> simp
    unfold toInt64?
    rcases hf with rfl | ⟨zeros, hzeros, rfl⟩
    · rw [htext, List.append_nil, splitPoint_of_ne_point hpoint]
      exact (hword front).2 hfront
    · have hall : zeros.all (· = '0') = true := by simpa using hzeros
      rw [htext, splitPoint_append_point hpoint]
      simp only [hall, if_true]
      exact (hword front).2 hfront

/-- A number is converted exactly if its text writes an integer of 64 bits, to that integer. -/
theorem toInt64_eq_ok {v : Int64} :
    n.toInt64 = .ok v ↔ WritesInteger n.text.toList v.toInt := by
  rw [← toInt64?_eq_some, toInt64]
  cases n.toInt64? <;> simp

theorem toInt64_eq_error {failure : Failure} : n.toInt64 = .error failure ↔
    failure = .heightNotIntegral n.text ∧ ∀ v : Int64, ¬ WritesInteger n.text.toList v.toInt := by
  simp only [← toInt64?_eq_some]
  rw [toInt64]
  cases n.toInt64? <;> simp [eq_comm]

/-- **Literals are converted exactly**: to the number that they write if that is an integer of 64
bits, and otherwise not at all, with a failure that shows the literal as it was written. The literal
of an integer is accepted as it is and converted back. -/
theorem toInt64_exact :
    (∀ s n, parse? s = some n →
      (∀ v : Int64, n.toInt64 = .ok v ↔ written s.toList = v.toInt) ∧
      ∀ failure, n.toInt64 = .error failure ↔ failure = .heightNotIntegral s ∧
        ¬ ∃ z : ℤ, -2 ^ 63 ≤ z ∧ z ≤ 2 ^ 63 - 1 ∧ written s.toList = z) ∧
    ∀ v : Int64, parse? (ofInt64 v).text = some (ofInt64 v) ∧ (ofInt64 v).toInt64 = .ok v := by
  refine ⟨fun s n hn => ?_, fun v => ⟨parse?_ofInt64 v, toInt64_ofInt64 v⟩⟩
  obtain ⟨hs, rfl⟩ := parse?_eq_some.1 hn
  refine ⟨fun v => ?_, fun failure => ?_⟩
  · rw [toInt64_eq_ok, hs.writesInteger_iff]
  · rw [toInt64_eq_error]
    refine and_congr_right fun _ => ⟨?_, fun hnone v hv => ?_⟩
    · rintro hnone ⟨z, hlow, hhigh, hz⟩
      have hword : (Int64.ofInt z).toInt = z := Int64.toInt_ofInt_of_le hlow (by omega)
      exact hnone (Int64.ofInt z) (hs.writesInteger_iff.2 (hword.symm ▸ hz))
    · have hhigh := v.toInt_lt
      exact hnone ⟨v.toInt, v.le_toInt, by omega, hs.writesInteger_iff.1 hv⟩

/-- The general statement at the least integer, written at length, and at the first one past the
greatest. -/
theorem toInt64_exact_limits :
    parse? "-009223372036854775808.000" = some ⟨"-009223372036854775808.000"⟩ ∧
      written "-009223372036854775808.000".toList = Int64.minValue.toInt ∧
      parse? "9223372036854775808" = some ⟨"9223372036854775808"⟩ ∧
      (⟨"9223372036854775808"⟩ : Literal).toInt64 =
        .error (.heightNotIntegral "9223372036854775808") := by
  have hleast : parse? "-009223372036854775808.000" = some ⟨"-009223372036854775808.000"⟩ := by
    decide +kernel
  have hpast : parse? "9223372036854775808" = some ⟨"9223372036854775808"⟩ := by decide +kernel
  refine ⟨hleast, ((toInt64_exact.1 _ _ hleast).1 _).1 (by decide +kernel), hpast,
    ((toInt64_exact.1 _ _ hpast).2 _).2 ⟨rfl, ?_⟩⟩
  rintro ⟨z, -, hhigh, hz⟩
  have hwritten : written "9223372036854775808".toList = (9223372036854775808 : ℕ) := rfl
  rw [hwritten] at hz
  have : (9223372036854775808 : ℤ) = z := by exact_mod_cast hz
  omega

end Literal
end TxIndex
