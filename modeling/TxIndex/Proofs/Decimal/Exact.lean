import TxIndex.Proofs.Decimal.Forms
import TxIndex.Proofs.Text.Numerals

/-! # What numerals write

The number that a numeral writes is made up of its whole digits, of those behind its point, and of
its sign (`Decimal.written`). A text is read as a number as far as it is one, and a numeral is read
as the number that it writes (`Decimal.value_read`). -/
namespace TxIndex
namespace Decimal

/-- The size that digits write, those before a point and those behind it. -/
def writtenSize : List Char × Option (List Char) → ℚ
  | (whole, none) => digitsValue whole
  | (whole, some fraction) => digitsValue whole + digitsValue fraction / 10 ^ fraction.length

/-- The number that a numeral writes. -/
def written (cs : List Char) : ℚ :=
  if cs.head? = some '-' then -writtenSize (splitPoint (dropMinus cs))
  else writtenSize (splitPoint (dropMinus cs))

variable {cs whole fraction : List Char} {negative : Bool}

theorem digitsValue_append (xs ys : List Char) :
    digitsValue (xs ++ ys) = digitsValue xs * 10 ^ ys.length + digitsValue ys := by
  have happend : digitsValue (xs ++ ys) = Nat.ofDigitChars 10 ys (digitsValue xs) :=
    Nat.ofDigitChars_append 0
  rw [happend, Nat.ofDigitChars_eq_ofDigitChars_zero, mul_comm]
  rfl

/-- Neither blanks nor a sign are taken from digits. -/
theorem takeSign_run (h : IsRun whole) (rest : List Char) :
    takeSign ((whole ++ rest).dropWhile isBlank) = (false, whole ++ rest) := by
  obtain ⟨c, cs, rfl, hc⟩ := h.exists_cons
  have hblank : ¬ isBlank c = true := by
    intro hblank
    simp only [isBlank, Bool.or_eq_true, decide_eq_true_eq] at hblank
    rcases hblank with ((((rfl | rfl) | rfl) | rfl) | rfl) | rfl <;> exact absurd hc (by decide)
  rw [List.cons_append, List.dropWhile_cons_of_neg hblank]
  unfold takeSign
  split
  · next heq =>
    obtain ⟨rfl, -⟩ := List.cons.inj heq
    exact absurd hc (by decide)
  · next heq =>
    obtain ⟨rfl, -⟩ := List.cons.inj heq
    exact absurd hc (by decide)
  · rfl

/-- Digits are read up to their end. -/
theorem read_run (hsign : takeSign (cs.dropWhile isBlank) = (negative, whole)) (hw : IsRun whole) :
    read cs = ⟨negative, digitsValue whole, 0⟩ := by
  have hempty : whole.isEmpty = false := by simp [hw.1]
  simp only [read, hsign, List.takeWhile_eq_self_iff.2 hw.2, List.dropWhile_eq_nil_iff.2 hw.2,
    takeFraction, hempty, List.append_nil, exponentOf]
  rfl

/-- Digits with a point are read up to the end of those behind it. -/
theorem read_point (hsign : takeSign (cs.dropWhile isBlank) = (negative, whole ++ '.' :: fraction))
    (hw : IsRun whole) (hf : IsRun fraction) :
    read cs = ⟨negative, digitsValue (whole ++ fraction), -(fraction.length : Int)⟩ := by
  have hempty : whole.isEmpty = false := by simp [hw.1]
  have htake : (whole ++ '.' :: fraction).takeWhile Char.isDigit = whole := by
    rw [List.takeWhile_append_of_pos hw.2, List.takeWhile_cons_of_neg (by decide), List.append_nil]
  have hdrop : (whole ++ '.' :: fraction).dropWhile Char.isDigit = '.' :: fraction := by
    rw [List.dropWhile_append_of_pos hw.2, List.dropWhile_cons_of_neg (by decide)]
  simp only [read, hsign, htake, hdrop, takeFraction, List.takeWhile_eq_self_iff.2 hf.2,
    List.dropWhile_eq_nil_iff.2 hf.2, hempty, exponentOf, zero_sub]
  rfl

/-- The body of a numeral is read as the size that it writes. -/
theorem read_body {body : List Char} (hsign : takeSign (cs.dropWhile isBlank) = (negative, body))
    (hbody : isLiteral body = true) (hminus : dropMinus body = body) :
    (read cs).negative = negative ∧ (read cs).size = writtenSize (splitPoint body) := by
  unfold isLiteral at hbody
  rw [hminus] at hbody
  have hsplit := splitPoint_spec body
  rcases hparts : splitPoint body with ⟨whole, _ | fraction⟩ <;>
    simp only [hparts] at hbody hsplit
  · rw [hsplit] at hsign
    rw [read_run hsign (isDigits_iff.1 hbody)]
    simp [size, writtenSize]
  · obtain ⟨hw, hf⟩ := Bool.and_eq_true_iff.1 hbody
    rw [hsplit] at hsign
    rw [read_point hsign (isDigits_iff.1 hw) (isDigits_iff.1 hf), size, writtenSize,
      digitsValue_append]
    refine ⟨rfl, ?_⟩
    rw [zpow_neg, zpow_natCast, ← div_eq_mul_inv]
    push_cast
    field_simp

/-- The number that a numeral writes, its sign taken off. -/
theorem written_numeral {sign : List Char} (hsign : sign = [] ∨ sign = ['-']) (hw : IsRun whole)
    (fraction : List Char) : written (sign ++ (whole ++ fraction)) =
      if sign = ['-'] then -writtenSize (splitPoint (whole ++ fraction))
      else writtenSize (splitPoint (whole ++ fraction)) := by
  rcases hsign with rfl | rfl
  · have hhead : (whole ++ fraction).head? ≠ some '-' := by
      obtain ⟨c, rest, rfl, hc⟩ := hw.exists_cons
      intro hhead
      obtain rfl : c = '-' := Option.some.inj hhead
      exact absurd hc (by decide)
    rw [List.nil_append, written, if_neg hhead, dropMinus_run hw fraction]
    rfl
  · rfl

/-- A numeral is read as the number that it writes. -/
theorem value_read (h : IsNumeral cs) : (read cs).value = written cs := by
  obtain ⟨sign, whole, fraction, hsign, hw, hf, rfl⟩ := h
  have hbody : isLiteral (whole ++ fraction) = true :=
    isLiteral_iff.2 ⟨[], whole, fraction, .inl rfl, hw, hf, rfl⟩
  have hminus := dropMinus_run hw fraction
  rw [written_numeral hsign hw]
  rcases hsign with rfl | rfl
  · obtain ⟨hnegative, hsize⟩ := read_body (takeSign_run hw fraction) hbody hminus
    rw [List.nil_append, value, hnegative, hsize]
    rfl
  · have hsign : takeSign (('-' :: (whole ++ fraction)).dropWhile isBlank) =
        (true, whole ++ fraction) := rfl
    obtain ⟨hnegative, hsize⟩ := read_body hsign hbody hminus
    rw [List.singleton_append, value, hnegative, hsize]
    rfl

end Decimal
end TxIndex
