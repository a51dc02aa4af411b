import TxIndex.Proofs.Text.Accepted

/-! # Places in a text

A text can be cut between two of its characters, and a place is the number of bytes before the cut.
`Utf8.Cut source pos rest` says that `pos` is such a place and that the characters `rest` stand
behind it. What is asked of a place byte by byte (`Utf8.isBoundary`, `Utf8.slice`) is answered at
cuts as for the characters (`Utf8.Cut.isBoundary`, `Utf8.Cut.slice`).

Cuts are what the scanner of queries is proved with: its cursor is a place, what is left to be read
are characters, and a cut says that the two belong together. Of two cuts the one with less behind it
is the later one (`Utf8.Cut.lt_of_length_lt`), and what lies between them is a text
(`Utf8.Cut.slice`). -/
namespace TxIndex
namespace Utf8

/-! ## The bytes of characters -/

/-- The bytes of characters. -/
def bytesOf (cs : List Char) : List UInt8 := cs.flatMap String.utf8EncodeChar

variable {c : Char} {cs front rest w : List Char} {source : String} {pos q : Nat}

@[simp] theorem bytesOf_nil : bytesOf [] = [] := rfl

@[simp] theorem bytesOf_cons : bytesOf (c :: cs) = String.utf8EncodeChar c ++ bytesOf cs :=
  List.flatMap_cons

@[simp] theorem bytesOf_append : bytesOf (w ++ rest) = bytesOf w ++ bytesOf rest :=
  List.flatMap_append

theorem bytesOf_eq_nil : bytesOf cs = [] ↔ cs = [] := by
  cases cs <;> simp

@[simp] theorem encode_ofList : encode (String.ofList cs) = bytesOf cs := by
  rw [encode, String.toList_ofList, bytesOf]

theorem encode_eq_bytesOf (s : String) : encode s = bytesOf s.toList := rfl

theorem utf8EncodeChar_ascii (h : c.toNat < 0x80) :
    String.utf8EncodeChar c = [UInt8.ofNat c.toNat] := by
  rcases utf8EncodeChar_cases c with ⟨-, he⟩ | ⟨x, -, y, -, hc, -⟩ | ⟨x, -, y, -, z, -, hc, -⟩ |
    ⟨x, -, y, -, z, -, w, -, hc, -⟩
  · exact he
  all_goals omega

/-- Every byte of a longer form is past the characters of one byte. -/
theorem le_of_mem_utf8EncodeChar (h : 0x80 ≤ c.toNat) :
    ∀ b ∈ String.utf8EncodeChar c, 0x80 ≤ b := by
  rcases utf8EncodeChar_cases c with ⟨hc, -⟩ | ⟨x, hx, y, hy, -, -, he⟩ |
    ⟨x, hx, y, hy, z, hz, -, -, he⟩ | ⟨x, hx, y, hy, z, hz, w, hw, -, -, he⟩
  · omega
  all_goals
    rw [he]
    simp only [List.forall_mem_cons, List.not_mem_nil, false_implies, implies_true, and_true,
      UInt8.le_iff_toNat_le, UInt8.toNat_ofNat', UInt8.reduceToNat]
    omega

/-- A character begins with a byte that does not continue one. -/
theorem exists_utf8EncodeChar (c : Char) :
    ∃ b bs, String.utf8EncodeChar c = b :: bs ∧ ¬ (0x80 ≤ b ∧ b < 0xc0) := by
  rcases utf8EncodeChar_cases c with ⟨hc, he⟩ | ⟨x, hx, y, hy, -, -, he⟩ |
    ⟨x, hx, y, hy, z, hz, -, -, he⟩ | ⟨x, hx, y, hy, z, hz, w, hw, -, -, he⟩ <;>
    refine ⟨_, _, he, ?_⟩ <;>
    simp only [UInt8.le_iff_toNat_le, UInt8.lt_iff_toNat_lt, UInt8.toNat_ofNat',
      UInt8.reduceToNat] <;>
    omega

/-- The bytes of characters begin with those of others only if the characters do. -/
theorem exists_append_of_bytesOf {bs : List UInt8} (h : bytesOf cs = bytesOf w ++ bs) :
    ∃ rest, cs = w ++ rest ∧ bs = bytesOf rest := by
  induction w generalizing cs with
  | nil => exact ⟨cs, rfl, h.symm⟩
  | cons d w ih =>
    cases cs with
    | nil =>
      rw [bytesOf_nil, bytesOf_cons, List.append_assoc] at h
      exact absurd (List.append_eq_nil_iff.1 h.symm).1 String.utf8EncodeChar_ne_nil
    | cons c cs =>
      rw [bytesOf_cons, bytesOf_cons, List.append_assoc] at h
      have hle : ∀ {a b : Char} {xs ys : List UInt8},
          String.utf8EncodeChar a ++ xs = String.utf8EncodeChar b ++ ys → ¬ a < b := by
        intro a b xs ys heq hlt
        exact List.lt_irrefl _ (heq ▸ utf8EncodeChar_append_lt hlt xs ys)
      obtain rfl : c = d := Char.le_antisymm (Char.not_lt.1 (hle h.symm)) (Char.not_lt.1 (hle h))
      obtain ⟨rest, rfl, hbs⟩ := ih (List.append_cancel_left h)
      exact ⟨rest, rfl, hbs⟩

theorem bytesOf_prefix_iff : bytesOf w <+: bytesOf cs ↔ w <+: cs := by
  constructor
  · rintro ⟨bs, hbs⟩
    obtain ⟨rest, rfl, -⟩ := exists_append_of_bytesOf hbs.symm
    exact List.prefix_append w rest
  · rintro ⟨rest, rfl⟩
    exact ⟨bytesOf rest, bytesOf_append.symm⟩

/-! ## Boundaries and slices -/

/-- Whether a place lies between two characters: at the end, or before a byte that does not continue
a character. -/
def isBoundary (bytes : List UInt8) (pos : Nat) : Bool :=
  match bytes[pos]? with
  | none => pos = bytes.length
  | some b => ¬ (0x80 ≤ b ∧ b < 0xc0)

theorem le_length_of_isBoundary {bytes : List UInt8} (h : isBoundary bytes pos = true) :
    pos ≤ bytes.length := by
  unfold isBoundary at h
  split at h
  · exact Nat.le_of_eq (of_decide_eq_true h)
  · rename_i hb
    exact Nat.le_of_lt (List.getElem?_eq_some_iff.1 hb).1

/-- The part of a text between two places, if they are places between characters in order. -/
def slice (source : String) (start stop : Nat) : Option String :=
  if start ≤ stop ∧ isBoundary (encode source) start ∧ isBoundary (encode source) stop then
    (decode (((encode source).take stop).drop start)).toOption
  else none

/-! ## Cuts -/

/-- The place `pos` lies between two characters of the source, or at an end, and `rest` is what
stands behind it. -/
def Cut (source : String) (pos : Nat) (rest : List Char) : Prop :=
  ∃ front, source.toList = front ++ rest ∧ (bytesOf front).length = pos

theorem cut_zero (source : String) : Cut source 0 source.toList := ⟨[], rfl, rfl⟩

theorem cut_zero_ofList (cs : List Char) : Cut (String.ofList cs) 0 cs :=
  ⟨[], String.toList_ofList, rfl⟩

namespace Cut

theorem advance (h : Cut source pos (w ++ rest)) : Cut source (pos + (bytesOf w).length) rest := by
  obtain ⟨front, hsource, rfl⟩ := h
  exact ⟨front ++ w, by rw [hsource, List.append_assoc], by rw [bytesOf_append, List.length_append]⟩

theorem encode_eq (h : Cut source pos rest) :
    ∃ before, encode source = before ++ bytesOf rest ∧ before.length = pos := by
  obtain ⟨front, hsource, hpos⟩ := h
  exact ⟨bytesOf front, by rw [encode_eq_bytesOf, hsource, bytesOf_append], hpos⟩

theorem length_eq (h : Cut source pos rest) :
    pos + (bytesOf rest).length = source.utf8ByteSize := by
  obtain ⟨before, hbytes, rfl⟩ := h.encode_eq
  rw [← length_encode, hbytes, List.length_append]

theorem pos_eq (h : Cut source pos (w ++ rest)) (h' : Cut source q rest) :
    q = pos + (bytesOf w).length := by
  have hlength := h.length_eq
  have hlength' := h'.length_eq
  rw [bytesOf_append, List.length_append] at hlength
  omega

theorem le_size (h : Cut source pos rest) : pos ≤ source.utf8ByteSize := by
  have := h.length_eq
  omega

/-- Only at the end nothing is left. -/
theorem size_le_iff (h : Cut source pos rest) : source.utf8ByteSize ≤ pos ↔ rest = [] := by
  have hlength := h.length_eq
  refine ⟨fun hle => ?_, ?_⟩
  · have hnil : bytesOf rest = [] := List.length_eq_zero_iff.1 (by omega)
    exact bytesOf_eq_nil.1 hnil
  · rintro rfl
    exact Nat.le_of_eq hlength.symm

theorem drop_eq (h : Cut source pos rest) : (encode source).drop pos = bytesOf rest := by
  obtain ⟨before, hbytes, rfl⟩ := h.encode_eq
  rw [hbytes, List.drop_left]

/-- The byte at a cut is the first one of what is left. -/
theorem getElem?_eq (h : Cut source pos rest) : (encode source)[pos]? = (bytesOf rest).head? := by
  rw [← h.drop_eq, List.head?_drop]

/-- Cuts are the positions of a text. -/
theorem isValid (h : Cut source pos rest) : (⟨pos⟩ : String.Pos.Raw).IsValid source := by
  obtain ⟨front, hsource, rfl⟩ := h
  refine String.Pos.Raw.isValid_iff_exists_append.2
    ⟨String.ofList front, String.ofList rest, ?_, ?_⟩
  · rw [← String.ofList_append, ← hsource, String.ofList_toList]
  · rw [← encode_ofList, length_encode]
    rfl

theorem isBoundary (h : Cut source pos rest) : Utf8.isBoundary (encode source) pos = true := by
  rw [Utf8.isBoundary, h.getElem?_eq]
  cases rest with
  | nil => simpa [length_encode] using h.length_eq
  | cons c rest =>
    obtain ⟨b, bs, hc, hb⟩ := exists_utf8EncodeChar c
    rw [bytesOf_cons, hc]
    exact decide_eq_true hb

/-- What is sliced out between two cuts are the characters between them. -/
theorem slice (h : Cut source pos (w ++ rest)) (h' : Cut source q rest) :
    Utf8.slice source pos q = some (String.ofList w) := by
  have hq := h.pos_eq h'
  have hpart : ((encode source).take q).drop pos = encode (String.ofList w) := by
    obtain ⟨before, hbytes, rfl⟩ := h.encode_eq
    rw [hbytes, hq, bytesOf_append, ← List.append_assoc, ← List.length_append, List.take_left,
      List.drop_left, encode_ofList]
  rw [Utf8.slice, if_pos ⟨by omega, h.isBoundary, h'.isBoundary⟩, hpart, decode_encode]
  rfl

/-- What is sliced out up to the end is all that is left. -/
theorem slice_end (h : Cut source pos rest) :
    Utf8.slice source pos source.utf8ByteSize = some (String.ofList rest) := by
  rw [← List.append_nil rest] at h
  have hend := h.advance
  rw [← h.length_eq, List.append_nil]
  exact h.slice hend

theorem lt_of_length_lt (h : Cut source pos cs) (h' : Cut source q rest)
    (hlt : rest.length < cs.length) : pos < q := by
  obtain ⟨front, hsource, -⟩ := id h
  obtain ⟨front', hsource', -⟩ := id h'
  obtain ⟨w, rfl⟩ : rest <:+ cs :=
    List.suffix_of_suffix_length_le ⟨front', hsource'.symm⟩ ⟨front, hsource.symm⟩ (Nat.le_of_lt hlt)
  have hq := h.pos_eq h'
  cases w with
  | nil => simp at hlt
  | cons c w =>
    obtain ⟨b, bs, hc, -⟩ := exists_utf8EncodeChar c
    rw [hq, bytesOf_cons, hc]
    simp

/-- Behind a cut only whole characters can be sliced out, and the slice ends at a cut. -/
theorem of_slice {part : String} (h : Cut source pos cs)
    (hslice : Utf8.slice source pos q = some part) :
    ∃ rest, cs = part.toList ++ rest ∧ Cut source q rest := by
  obtain ⟨before, hbytes, rfl⟩ := h.encode_eq
  unfold Utf8.slice at hslice
  split at hslice
  · rename_i hin
    obtain ⟨hle, -, hq⟩ := hin
    have hsize : q ≤ (encode source).length := le_length_of_isBoundary hq
    have hpart : decode ((bytesOf cs).take (q - before.length)) = .ok part := by
      rw [hbytes, List.drop_take, List.drop_left] at hslice
      cases hdecode : decode ((bytesOf cs).take (q - before.length)) <;> rw [hdecode] at hslice <;>
        cases hslice
      rfl
    have henc := decode_eq_ok.1 hpart
    have hsplit : bytesOf cs = bytesOf part.toList ++ (bytesOf cs).drop (q - before.length) := by
      rw [← encode_eq_bytesOf, henc, List.take_append_drop]
    obtain ⟨rest, rfl, -⟩ := exists_append_of_bytesOf hsplit
    refine ⟨rest, rfl, ?_⟩
    have hend := h.advance
    rw [hbytes, List.length_append] at hsize
    rwa [← encode_eq_bytesOf, henc, List.length_take, Nat.min_eq_left (by omega),
      Nat.add_sub_cancel' hle] at hend
  · cases hslice

end Cut

end Utf8
end TxIndex
