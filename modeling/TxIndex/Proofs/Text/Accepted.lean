import TxIndex.Proofs.Text.Bytes

/-! # The bytes that are read as a text

Reading is strict: bytes that are read as a text are the written form of that text and of no other
(`Utf8.decode_eq_ok`). Between two characters the machine takes off the bytes of one character,
which it accepts in their shortest form only (`Utf8.decodeFrom_cases`).

Bytes are taken apart by their digits in the base of 64, so a character of two, three or four bytes
is given by two, three or four small numbers, and the cases of the machine are the ranges of the
first of them. Overlong forms, surrogates and numbers past the last character are what the bounds on
the second byte exclude. -/
namespace TxIndex
namespace Utf8

/-! ## The bytes of a character by its digits -/

section

variable {c : Char} {x y z w : Nat}

theorem utf8EncodeChar_two (hx : x < 32) (hy : y < 64) (hc : 0x80 ≤ c.toNat)
    (hn : c.toNat = 64 * x + y) :
    String.utf8EncodeChar c = [UInt8.ofNat (0xc0 + x), UInt8.ofNat (0x80 + y)] := by
  rcases utf8EncodeChar_cases c with ⟨h, -⟩ | ⟨x', hx', y', hy', -, hn', he⟩ |
    ⟨x', -, y', -, z', -, h, -, -⟩ | ⟨x', -, y', -, z', -, w', -, h, -, -⟩
  · omega
  · rw [he, show x' = x by omega, show y' = y by omega]
  · omega
  · omega

theorem utf8EncodeChar_three (hx : x < 16) (hy : y < 64) (hz : z < 64) (hc : 0x800 ≤ c.toNat)
    (hn : c.toNat = 4096 * x + 64 * y + z) : String.utf8EncodeChar c =
      [UInt8.ofNat (0xe0 + x), UInt8.ofNat (0x80 + y), UInt8.ofNat (0x80 + z)] := by
  rcases utf8EncodeChar_cases c with ⟨h, -⟩ | ⟨x', hx', y', hy', -, h, -⟩ |
    ⟨x', hx', y', hy', z', hz', -, hn', he⟩ | ⟨x', -, y', -, z', -, w', -, h, -, -⟩
  · omega
  · omega
  · rw [he, show x' = x by omega, show y' = y by omega, show z' = z by omega]
  · omega

theorem utf8EncodeChar_four (hy : y < 64) (hz : z < 64) (hw : w < 64) (hc : 0x10000 ≤ c.toNat)
    (hn : c.toNat = 262144 * x + 4096 * y + 64 * z + w) : String.utf8EncodeChar c =
      [UInt8.ofNat (0xf0 + x), UInt8.ofNat (0x80 + y), UInt8.ofNat (0x80 + z),
        UInt8.ofNat (0x80 + w)] := by
  rcases utf8EncodeChar_cases c with ⟨h, -⟩ | ⟨x', hx', y', hy', -, h, -⟩ |
    ⟨x', hx', y', hy', z', hz', -, h, -⟩ | ⟨x', hx', y', hy', z', hz', w', hw', -, hn', he⟩
  · omega
  · omega
  · omega
  · rw [he, show x' = x by omega, show y' = y by omega, show z' = z by omega,
      show w' = w by omega]

end

theorem toNat_charOfNat {n : Nat} (h : n < 0xd800 ∨ 0xdfff < n ∧ n < 0x110000) :
    (Char.ofNat n).toNat = n := by
  rw [Char.ofNat, dif_pos h]
  rfl

/-! ## Taking off a character -/

/-- The bytes begin with those of the first character, and the others are read from the rest. -/
def Begins (bs : List UInt8) (cs : List Char) : Prop :=
  ∃ c cs' rest next, cs = c :: cs' ∧ bs = String.utf8EncodeChar c ++ rest ∧
    decodeFrom next none rest = .ok cs'

theorem begins_of_map {c : Char} {cs : List Char} {bs rest : List UInt8} {next : Nat}
    (h : (c :: ·) <$> decodeFrom next none rest = .ok cs)
    (hbs : bs = String.utf8EncodeChar c ++ rest) : Begins bs cs := by
  cases hrest : decodeFrom next none rest with
  | error fault =>
    rw [hrest] at h
    cases h
  | ok cs' =>
    rw [hrest] at h
    exact ⟨c, cs', rest, next, (Except.ok.inj h).symm, hbs, hrest⟩

/-- Leading bytes announce a form of two, three or four bytes. -/
theorem lead?_cases {b : UInt8} {p : Partial} (h : lead? b = some p) :
    (∃ x < 32, 2 ≤ x ∧ b = UInt8.ofNat (0xc0 + x)) ∨ (∃ x < 16, b = UInt8.ofNat (0xe0 + x)) ∨
      ∃ x < 5, b = UInt8.ofNat (0xf0 + x) := by
  have hbyte : ∀ n ≤ b.toNat, b = UInt8.ofNat (n + (b.toNat - n)) := by
    intro n hn
    rw [Nat.add_sub_cancel' hn, UInt8.ofNat_toNat]
  have hmax := b.toNat_lt
  have hlow : ¬ b.toNat < 0xc2 := by
    intro hlt
    rw [lead?, if_pos (UInt8.lt_iff_toNat_lt.2 hlt)] at h
    cases h
  have hhigh : ¬ 0xf5 ≤ b.toNat := by
    intro hle
    have hnone : ∀ n < 11, lead? (UInt8.ofNat (0xf5 + n)) = none := by decide
    have hb := hnone (b.toNat - 0xf5) (by omega)
    rw [← hbyte _ hle, h] at hb
    cases hb
  by_cases h2 : b.toNat < 0xe0
  · exact .inl ⟨b.toNat - 0xc0, by omega, by omega, hbyte _ (by omega)⟩
  by_cases h3 : b.toNat < 0xf0
  · exact .inr (.inl ⟨b.toNat - 0xe0, by omega, hbyte _ (by omega)⟩)
  · exact .inr (.inr ⟨b.toNat - 0xf0, by omega, hbyte _ (by omega)⟩)

variable {start : Nat} {bs : List UInt8} {cs : List Char}

/-- Inside a character the next byte is a continuation byte within the bounds. -/
theorem decodeFrom_some_cases {p : Partial} (h : decodeFrom start (some p) bs = .ok cs)
    (hlow : 0x80 ≤ p.low.toNat) (hhigh : p.high.toNat ≤ 0xbf) :
    ∃ y rest, y < 64 ∧ p.low.toNat ≤ 0x80 + y ∧ 0x80 + y ≤ p.high.toNat ∧
      bs = UInt8.ofNat (0x80 + y) :: rest := by
  cases bs with
  | nil => simp [decodeFrom] at h
  | cons b rest =>
    have hin : ¬ (b < p.low ∨ p.high < b) := by
      intro hout
      rw [decodeFrom, if_pos hout] at h
      cases h
    rw [UInt8.lt_iff_toNat_lt, UInt8.lt_iff_toNat_lt] at hin
    refine ⟨b.toNat - 0x80, rest, by omega, by omega, by omega, ?_⟩
    rw [Nat.add_sub_cancel' (by omega), UInt8.ofNat_toNat]

theorem begins_one {b : UInt8} (hb : b < 0x80) (h : decodeFrom start none (b :: bs) = .ok cs) :
    Begins (b :: bs) cs := by
  rw [decodeFrom, if_pos hb] at h
  refine begins_of_map h ?_
  have hlt : b.toNat < 0x80 := UInt8.lt_iff_toNat_lt.1 hb
  have hn := toNat_charOfNat (n := b.toNat) (.inl (by omega))
  rcases utf8EncodeChar_cases (Char.ofNat b.toNat) with ⟨-, he⟩ | ⟨x, -, y, -, hc, -⟩ |
    ⟨x, -, y, -, z, -, hc, -⟩ | ⟨x, -, y, -, z, -, w, -, hc, -⟩
  · rw [he, hn, UInt8.ofNat_toNat, List.singleton_append]
  all_goals omega

theorem begins_two {x : Nat} (hx : x < 32) (hx2 : 2 ≤ x)
    (h : decodeFrom start none (UInt8.ofNat (0xc0 + x) :: bs) = .ok cs) :
    Begins (UInt8.ofNat (0xc0 + x) :: bs) cs := by
  rw [decodeFrom_lead (by omega) (by omega) (lead?_two x hx hx2)] at h
  obtain ⟨y, rest, hy, hlow, hhigh, rfl⟩ := decodeFrom_some_cases h (Nat.le_refl _) (Nat.le_refl _)
  rw [decodeFrom_continue hy hlow hhigh] at h
  simp only at h
  refine begins_of_map h ?_
  have hn := toNat_charOfNat (n := 64 * x + y) (.inl (by omega))
  rw [utf8EncodeChar_two hx hy (by omega) hn]
  rfl

theorem begins_three {x : Nat} (hx : x < 16)
    (h : decodeFrom start none (UInt8.ofNat (0xe0 + x) :: bs) = .ok cs) :
    Begins (UInt8.ofNat (0xe0 + x) :: bs) cs := by
  rw [decodeFrom_lead (by omega) (by omega) (lead?_three x hx)] at h
  obtain ⟨y, bs, hy, hlow, hhigh, rfl⟩ :=
    decodeFrom_some_cases h (by dsimp only; split <;> decide) (by dsimp only; split <;> decide)
  -- The bounds keep out overlong forms and surrogates.
  have hleast : x = 0 → 0xa0 ≤ 0x80 + y := fun hx0 => by rwa [if_pos hx0] at hlow
  have hsurrogate : x = 13 → 0x80 + y ≤ 0x9f := fun hx13 => by rwa [if_pos hx13] at hhigh
  rw [decodeFrom_continue hy hlow hhigh] at h
  simp only at h
  obtain ⟨z, rest, hz, hlow', hhigh', rfl⟩ :=
    decodeFrom_some_cases h (Nat.le_refl _) (Nat.le_refl _)
  rw [decodeFrom_continue hz hlow' hhigh'] at h
  simp only at h
  refine begins_of_map h ?_
  have hn := toNat_charOfNat (n := 64 * (64 * x + y) + z) (by omega)
  rw [utf8EncodeChar_three hx hy hz (by omega) (by omega)]
  rfl

theorem begins_four {x : Nat} (hx : x < 5)
    (h : decodeFrom start none (UInt8.ofNat (0xf0 + x) :: bs) = .ok cs) :
    Begins (UInt8.ofNat (0xf0 + x) :: bs) cs := by
  rw [decodeFrom_lead (by omega) (by omega) (lead?_four x hx)] at h
  obtain ⟨y, bs, hy, hlow, hhigh, rfl⟩ :=
    decodeFrom_some_cases h (by dsimp only; split <;> decide) (by dsimp only; split <;> decide)
  -- The bounds keep out overlong forms and what is past the last code point.
  have hleast : x = 0 → 0x90 ≤ 0x80 + y := fun hx0 => by rwa [if_pos hx0] at hlow
  have hlast : x = 4 → 0x80 + y ≤ 0x8f := fun hx4 => by rwa [if_pos hx4] at hhigh
  rw [decodeFrom_continue hy hlow hhigh] at h
  simp only at h
  obtain ⟨z, bs, hz, hlow', hhigh', rfl⟩ :=
    decodeFrom_some_cases h (Nat.le_refl _) (Nat.le_refl _)
  rw [decodeFrom_continue hz hlow' hhigh'] at h
  simp only at h
  obtain ⟨w, rest, hw, hlow'', hhigh'', rfl⟩ :=
    decodeFrom_some_cases h (Nat.le_refl _) (Nat.le_refl _)
  rw [decodeFrom_continue hw hlow'' hhigh''] at h
  simp only at h
  refine begins_of_map h ?_
  have hn := toNat_charOfNat (n := 64 * (64 * (64 * x + y) + z) + w) (by omega)
  rw [utf8EncodeChar_four (x := x) hy hz hw (by omega) (by omega)]
  rfl

/-- The bytes of a character are taken off whole. -/
theorem decodeFrom_cases {b : UInt8} (h : decodeFrom start none (b :: bs) = .ok cs) :
    Begins (b :: bs) cs := by
  by_cases hb : b < 0x80
  · exact begins_one hb h
  cases hp : lead? b with
  | none =>
    rw [decodeFrom, if_neg hb, hp] at h
    cases h
  | some p =>
    rcases lead?_cases hp with ⟨x, hx, hx2, rfl⟩ | ⟨x, hx, rfl⟩ | ⟨x, hx, rfl⟩
    · exact begins_two hx hx2 h
    · exact begins_three hx h
    · exact begins_four hx h

theorem flatMap_of_decodeFrom (h : decodeFrom start none bs = .ok cs) :
    bs = cs.flatMap String.utf8EncodeChar := by
  induction hn : bs.length using Nat.strongRecOn generalizing start bs cs with
  | ind n ih =>
    cases bs with
    | nil =>
      cases h
      rfl
    | cons b bs =>
      obtain ⟨c, cs', rest, next, rfl, hbs, hrest⟩ := decodeFrom_cases h
      have hlen := congrArg List.length hbs
      have hpos := List.length_pos_iff.2 (String.utf8EncodeChar_ne_nil (c := c))
      rw [List.length_append] at hlen
      rw [hbs, List.flatMap_cons, ← ih rest.length (by omega) hrest rfl]

/-- **Bytes are read as a text exactly if they are its bytes.** So no text has two forms, and what
is not the form of a text is refused. -/
theorem decode_eq_ok {s : String} : decode bs = .ok s ↔ encode s = bs := by
  refine ⟨fun h => ?_, fun h => h ▸ decode_encode s⟩
  unfold decode at h
  cases hcs : decodeFrom 0 none bs with
  | error fault =>
    rw [hcs] at h
    cases h
  | ok cs =>
    rw [hcs] at h
    cases h
    rw [encode, String.toList_ofList, flatMap_of_decodeFrom hcs]

end Utf8
end TxIndex
