import TxIndex.Text.Utf8

/-! # Texts and their bytes

Texts are compared by their code points, and by their bytes the order is the same
(`Utf8.encode_lt_encode_iff`): of two characters the lesser has, at the first byte in which they
differ, the lesser byte. In particular a text is known by its bytes (`Utf8.encode_inj`), and reading
them gives it back (`Utf8.decode_encode`).

Both results rest on the four ways in which a character is written, by its number of bytes
(`Utf8.utf8EncodeChar_cases`). A longer form begins with a greater byte, and among forms of one
length the first byte that differs decides, just as with numbers of equally many digits. -/
namespace TxIndex
namespace Utf8

/-- The bytes of a character by the digits of its number in base 64. -/
theorem utf8EncodeChar_cases (c : Char) :
    (c.toNat < 0x80 ∧ String.utf8EncodeChar c = [UInt8.ofNat c.toNat]) ∨
    (∃ x < 32, ∃ y < 64, 0x80 ≤ c.toNat ∧ c.toNat = 64 * x + y ∧
      String.utf8EncodeChar c = [UInt8.ofNat (0xc0 + x), UInt8.ofNat (0x80 + y)]) ∨
    (∃ x < 16, ∃ y < 64, ∃ z < 64, 0x800 ≤ c.toNat ∧ c.toNat = 4096 * x + 64 * y + z ∧
      String.utf8EncodeChar c =
        [UInt8.ofNat (0xe0 + x), UInt8.ofNat (0x80 + y), UInt8.ofNat (0x80 + z)]) ∨
    (∃ x < 8, ∃ y < 64, ∃ z < 64, ∃ w < 64,
      0x10000 ≤ c.toNat ∧ c.toNat = 262144 * x + 4096 * y + 64 * z + w ∧
      String.utf8EncodeChar c = [UInt8.ofNat (0xf0 + x), UInt8.ofNat (0x80 + y),
        UInt8.ofNat (0x80 + z), UInt8.ofNat (0x80 + w)]) := by
  have hmax : c.toNat < 0x110000 := by
    rcases c.valid with h | h
    · exact Nat.lt_trans h (by decide)
    · exact h.2
  have hval : c.val.toNat = c.toNat := rfl
  unfold String.utf8EncodeChar
  simp only [hval]
  by_cases h1 : c.toNat ≤ 0x7f
  · exact .inl ⟨by omega, if_pos h1⟩
  rw [if_neg h1]
  by_cases h2 : c.toNat ≤ 0x7ff
  · refine .inr (.inl ⟨c.toNat / 64 % 0x20, by omega, c.toNat % 0x40, by omega, by omega,
      by omega, ?_⟩)
    rw [if_pos h2, Nat.add_comm 0xc0, Nat.add_comm 0x80]
  rw [if_neg h2]
  by_cases h3 : c.toNat ≤ 0xffff
  · refine .inr (.inr (.inl ⟨c.toNat / 4096 % 0x10, by omega, c.toNat / 64 % 0x40, by omega,
      c.toNat % 0x40, by omega, by omega, by omega, ?_⟩))
    rw [if_pos h3, Nat.add_comm 0xe0, Nat.add_comm 0x80, Nat.add_comm 0x80]
  · refine .inr (.inr (.inr ⟨c.toNat / 262144 % 0x08, by omega, c.toNat / 4096 % 0x40, by omega,
      c.toNat / 64 % 0x40, by omega, c.toNat % 0x40, by omega, by omega, by omega, ?_⟩))
    rw [if_neg h3, Nat.add_comm 0xf0, Nat.add_comm 0x80, Nat.add_comm 0x80, Nat.add_comm 0x80]

/-- The bytes of the lesser character come first, whatever follows on either side. -/
theorem utf8EncodeChar_append_lt {c d : Char} (h : c < d) (xs ys : List UInt8) :
    String.utf8EncodeChar c ++ xs < String.utf8EncodeChar d ++ ys := by
  have hlt : c.toNat < d.toNat := h
  rcases utf8EncodeChar_cases c with ⟨hc, hc'⟩ | ⟨x, hx, y, hy, hc, hce, hc'⟩ |
      ⟨x, hx, y, hy, z, hz, hc, hce, hc'⟩ | ⟨x, hx, y, hy, z, hz, w, hw, hc, hce, hc'⟩ <;>
    rcases utf8EncodeChar_cases d with ⟨hd, hd'⟩ | ⟨x', hx', y', hy', hd, hde, hd'⟩ |
      ⟨x', hx', y', hy', z', hz', hd, hde, hd'⟩ |
      ⟨x', hx', y', hy', z', hz', w', hw', hd, hde, hd'⟩ <;>
    rw [hc', hd'] <;>
    simp only [List.cons_append, List.nil_append, List.cons_lt_cons_iff, UInt8.lt_iff_toNat_lt,
      ← UInt8.toNat_inj, UInt8.toNat_ofNat'] <;>
    omega

theorem flatMap_utf8EncodeChar_lt {cs ds : List Char} (h : cs < ds) :
    cs.flatMap String.utf8EncodeChar < ds.flatMap String.utf8EncodeChar := by
  induction cs generalizing ds with
  | nil =>
    cases ds with
    | nil => exact absurd h (List.not_lt_nil _)
    | cons d ds =>
      rw [List.flatMap_nil, List.flatMap_cons]
      cases hd : String.utf8EncodeChar d with
      | nil => exact absurd hd String.utf8EncodeChar_ne_nil
      | cons b bs => exact List.nil_lt_cons _ _
  | cons c cs ih =>
    cases ds with
    | nil => exact absurd h (List.not_lt_nil _)
    | cons d ds =>
      rw [List.flatMap_cons, List.flatMap_cons]
      rcases List.cons_lt_cons_iff.1 h with hcd | ⟨rfl, hcs⟩
      · exact utf8EncodeChar_append_lt hcd _ _
      · exact List.append_left_lt (ih hcs)

theorem encode_lt_encode {s t : String} (h : s < t) : encode s < encode t :=
  flatMap_utf8EncodeChar_lt h

/-- **Texts are in the order of their bytes.** One direction is shown by the first character that
differs, and the other follows as both orders are total. -/
theorem encode_lt_encode_iff {s t : String} : encode s < encode t ↔ s < t := by
  refine ⟨fun h => ?_, encode_lt_encode⟩
  rcases String.le_total t s with hle | hle
  · by_cases heq : t = s
    · exact absurd h (heq ▸ List.lt_irrefl _)
    · have hlt : t < s := String.not_le.1 fun hle' => heq (String.le_antisymm hle hle')
      exact absurd h (List.lt_asymm (encode_lt_encode hlt))
  · by_cases heq : s = t
    · exact absurd h (heq ▸ List.lt_irrefl _)
    · exact String.not_le.1 fun hle' => heq (String.le_antisymm hle hle')

/-- A text is known by its bytes. -/
theorem encode_inj {s t : String} : encode s = encode t ↔ s = t := by
  refine ⟨fun h => ?_, congrArg encode⟩
  refine String.le_antisymm (String.not_lt.1 fun hlt => ?_) (String.not_lt.1 fun hlt => ?_)
  · exact List.lt_irrefl _ (h ▸ encode_lt_encode hlt)
  · exact List.lt_irrefl _ (h ▸ encode_lt_encode hlt)

theorem length_encode (s : String) : (encode s).length = s.utf8ByteSize := by
  rw [String.utf8ByteSize, ← String.utf8Encode_toList, List.utf8Encode, List.size_toByteArray]
  rfl

/-! ## Reading the bytes of a text -/

/-- The bounds that a leading byte of three sets to the second are met by every character. -/
theorem lead?_three : ∀ x < 16, lead? (UInt8.ofNat (0xe0 + x)) =
    some ⟨1, 1, if x = 0 then 0xa0 else 0x80, if x = 13 then 0x9f else 0xbf, x⟩ := by decide

theorem lead?_four : ∀ x < 5, lead? (UInt8.ofNat (0xf0 + x)) =
    some ⟨1, 2, if x = 0 then 0x90 else 0x80, if x = 4 then 0x8f else 0xbf, x⟩ := by decide

theorem lead?_two : ∀ x < 32, 2 ≤ x →
    lead? (UInt8.ofNat (0xc0 + x)) = some ⟨1, 0, 0x80, 0xbf, x⟩ := by decide

/-- A leading byte is not a character of its own. -/
theorem decodeFrom_lead {start n : Nat} {p : Partial} {rest : List UInt8} (hn : 0x80 ≤ n)
    (hmax : n < 256) (hp : lead? (UInt8.ofNat n) = some p) :
    decodeFrom start none (UInt8.ofNat n :: rest) = decodeFrom start (some p) rest := by
  have hlarge : ¬ UInt8.ofNat n < 0x80 := by
    rw [UInt8.lt_iff_toNat_lt, UInt8.toNat_ofNat', Nat.mod_eq_of_lt hmax]
    exact Nat.not_lt.2 hn
  rw [decodeFrom, if_neg hlarge, hp]

theorem Partial.withByte_eq (p : Partial) {b : UInt8} {n : Nat} (h : b.toNat = 0x80 + n) :
    p.withByte b = 64 * p.bits + n := by
  have hn : b.toNat - 0x80 = n := by omega
  exact congrArg (64 * p.bits + ·) hn

/-- A continuation byte within the bounds adds six bits. -/
theorem decodeFrom_continue {start y : Nat} {p : Partial} {rest : List UInt8} (hy : y < 64)
    (hlow : p.low.toNat ≤ 0x80 + y) (hhigh : 0x80 + y ≤ p.high.toNat) :
    decodeFrom start (some p) (UInt8.ofNat (0x80 + y) :: rest) =
      match p.further with
      | 0 => (Char.ofNat (64 * p.bits + y) :: ·) <$> decodeFrom (start + p.seen + 1) none rest
      | n + 1 => decodeFrom start (some ⟨p.seen + 1, n, 0x80, 0xbf, 64 * p.bits + y⟩) rest := by
  have hbyte : (UInt8.ofNat (0x80 + y)).toNat = 0x80 + y := by
    rw [UInt8.toNat_ofNat']
    exact Nat.mod_eq_of_lt (by omega)
  have hin : ¬ (UInt8.ofNat (0x80 + y) < p.low ∨ p.high < UInt8.ofNat (0x80 + y)) := by
    rw [UInt8.lt_iff_toNat_lt, UInt8.lt_iff_toNat_lt, hbyte]
    omega
  cases hfurther : p.further with
  | zero => rw [decodeFrom, if_neg hin, p.withByte_eq hbyte, hfurther]
  | succ n => rw [decodeFrom, if_neg hin, p.withByte_eq hbyte, hfurther]

/-- The bounds of a second byte are those of any other, up to one leading byte. -/
theorem toNat_ite_le {b : UInt8} {x k n : Nat} (hn : 0x80 ≤ n) (h : x = k → b.toNat ≤ n) :
    (if x = k then b else 0x80).toNat ≤ n := by
  by_cases hx : x = k
  · rw [if_pos hx]
    exact h hx
  · rw [if_neg hx]
    exact hn

theorem le_toNat_ite {b : UInt8} {x k n : Nat} (hn : n ≤ 0xbf) (h : x = k → n ≤ b.toNat) :
    n ≤ (if x = k then b else 0xbf).toNat := by
  by_cases hx : x = k
  · rw [if_pos hx]
    exact h hx
  · rw [if_neg hx]
    exact hn

/-- A continuation byte is within the widest bounds. -/
theorem continuation_bounds {y : Nat} (hy : y < 64) :
    (0x80 : UInt8).toNat ≤ 0x80 + y ∧ 0x80 + y ≤ (0xbf : UInt8).toNat :=
  ⟨Nat.le_add_right _ _, Nat.add_le_add_left (Nat.le_of_lt_succ hy) _⟩

section

variable {c : Char} {x y z w : Nat} {rest : List UInt8} (start : Nat)

theorem decodeFrom_two (hx : x < 32) (hy : y < 64) (hc : 0x80 ≤ c.toNat)
    (hn : c.toNat = 64 * x + y) :
    decodeFrom start none (UInt8.ofNat (0xc0 + x) :: UInt8.ofNat (0x80 + y) :: rest) =
      (c :: ·) <$> decodeFrom (start + 2) none rest := by
  obtain ⟨hlow, hhigh⟩ := continuation_bounds hy
  rw [decodeFrom_lead (by omega) (by omega) (lead?_two x hx (by omega)),
    decodeFrom_continue hy hlow hhigh]
  simp only
  rw [← hn, Char.ofNat_toNat]

theorem decodeFrom_three (hx : x < 16) (hy : y < 64) (hz : z < 64) (hc : 0x800 ≤ c.toNat)
    (hn : c.toNat = 4096 * x + 64 * y + z) :
    decodeFrom start none
        (UInt8.ofNat (0xe0 + x) :: UInt8.ofNat (0x80 + y) :: UInt8.ofNat (0x80 + z) :: rest) =
      (c :: ·) <$> decodeFrom (start + 3) none rest := by
  have hvalid : c.toNat < 0xd800 ∨ 0xdfff < c.toNat ∧ c.toNat < 0x110000 := c.valid
  -- Behind the least leading byte no overlong form stands, behind the thirteenth no surrogate.
  have hlow : (if x = 0 then 0xa0 else 0x80 : UInt8).toNat ≤ 0x80 + y :=
    toNat_ite_le (by omega) fun h => show 0xa0 ≤ 0x80 + y by omega
  have hhigh : 0x80 + y ≤ (if x = 13 then 0x9f else 0xbf : UInt8).toNat :=
    le_toNat_ite (by omega) fun h => show 0x80 + y ≤ 0x9f by omega
  obtain ⟨hlow', hhigh'⟩ := continuation_bounds hz
  rw [decodeFrom_lead (by omega) (by omega) (lead?_three x hx), decodeFrom_continue hy hlow hhigh]
  simp only
  rw [decodeFrom_continue hz hlow' hhigh']
  simp only
  rw [show 64 * (64 * x + y) + z = c.toNat by omega, Char.ofNat_toNat]

theorem decodeFrom_four (hy : y < 64) (hz : z < 64) (hw : w < 64) (hc : 0x10000 ≤ c.toNat)
    (hn : c.toNat = 262144 * x + 4096 * y + 64 * z + w) :
    decodeFrom start none (UInt8.ofNat (0xf0 + x) :: UInt8.ofNat (0x80 + y) ::
        UInt8.ofNat (0x80 + z) :: UInt8.ofNat (0x80 + w) :: rest) =
      (c :: ·) <$> decodeFrom (start + 4) none rest := by
  have hvalid : c.toNat < 0xd800 ∨ 0xdfff < c.toNat ∧ c.toNat < 0x110000 := c.valid
  -- Behind the least leading byte no overlong form stands, behind the last nothing too great.
  have hlow : (if x = 0 then 0x90 else 0x80 : UInt8).toNat ≤ 0x80 + y :=
    toNat_ite_le (by omega) fun h => show 0x90 ≤ 0x80 + y by omega
  have hhigh : 0x80 + y ≤ (if x = 4 then 0x8f else 0xbf : UInt8).toNat :=
    le_toNat_ite (by omega) fun h => show 0x80 + y ≤ 0x8f by omega
  obtain ⟨hlow', hhigh'⟩ := continuation_bounds hz
  obtain ⟨hlow'', hhigh''⟩ := continuation_bounds hw
  rw [decodeFrom_lead (by omega) (by omega) (lead?_four x (by omega)),
    decodeFrom_continue hy hlow hhigh]
  simp only
  rw [decodeFrom_continue hz hlow' hhigh']
  simp only
  rw [decodeFrom_continue hw hlow'' hhigh'']
  simp only
  rw [show 64 * (64 * (64 * x + y) + z) + w = c.toNat by omega, Char.ofNat_toNat]

end

/-- Reading takes off one character after the other. -/
theorem decodeFrom_char (start : Nat) (c : Char) (rest : List UInt8) :
    ∃ next, decodeFrom start none (String.utf8EncodeChar c ++ rest) =
      (c :: ·) <$> decodeFrom next none rest := by
  rcases utf8EncodeChar_cases c with ⟨hc, he⟩ | ⟨x, hx, y, hy, hc, hn, he⟩ |
    ⟨x, hx, y, hy, z, hz, hc, hn, he⟩ | ⟨x, hx, y, hy, z, hz, w, hw, hc, hn, he⟩
  · have hbyte : (UInt8.ofNat c.toNat).toNat = c.toNat := by
      rw [UInt8.toNat_ofNat']
      exact Nat.mod_eq_of_lt (by omega)
    have hsmall : UInt8.ofNat c.toNat < 0x80 := by
      rw [UInt8.lt_iff_toNat_lt, hbyte]
      exact hc
    refine ⟨start + 1, ?_⟩
    rw [he, List.singleton_append, decodeFrom, if_pos hsmall, hbyte, Char.ofNat_toNat]
  · rw [he]
    exact ⟨_, decodeFrom_two start hx hy hc hn⟩
  · rw [he]
    exact ⟨_, decodeFrom_three start hx hy hz hc hn⟩
  · rw [he]
    exact ⟨_, decodeFrom_four start hy hz hw hc hn⟩

theorem decodeFrom_flatMap (start : Nat) (cs : List Char) :
    decodeFrom start none (cs.flatMap String.utf8EncodeChar) = .ok cs := by
  induction cs generalizing start with
  | nil => rfl
  | cons c cs ih =>
    obtain ⟨next, h⟩ := decodeFrom_char start c (cs.flatMap String.utf8EncodeChar)
    rw [List.flatMap_cons, h, ih next]
    rfl

/-- **Reading the bytes of a text gives the text.** By induction on its characters, the machine
being between two characters at each step. -/
theorem decode_encode (s : String) : decode (encode s) = .ok s := by
  rw [decode, encode, decodeFrom_flatMap]
  exact congrArg Except.ok String.ofList_toList

end Utf8
end TxIndex
