import TxIndex.Json.Reader
import TxIndex.Json.Writer
import TxIndex.Proofs.Text.Numerals

/-! # Reading back a JSON value

The reader takes the written form of a value off the front of any text in which it ends
(`Json.ReadsBack`), provided the fuel is twice its length. Texts, integers, and arrays and objects of
such values are such values, so each of them is read back from its text
(`Json.ReadsBack.read?_write`).

The proof follows the writer. Each character of a text is written as itself, as a letter behind a
backslash or by its number, and each of these is taken back (`Json.escapedChar_cases`); an integer
is written in digits and ends where none follow (`Json.Ends`); arrays and objects go by induction on
their items, with fuel for what is left. -/
namespace TxIndex
namespace Json

/-! ## Texts -/

theorem digitValue?_digitChar : ∀ n < 16, Hex.digitValue? (Nat.digitChar n) = some n := by decide

/-- The escape of a control character names it. -/
theorem hexNumber?_control {n : Nat} (h : n < 0x20) :
    hexNumber? '0' '0' (Nat.digitChar (n / 16)) (Nat.digitChar (n % 16)) = some n := by
  have hzero : Hex.digitValue? '0' = some 0 := by decide
  have hhigh := digitValue?_digitChar (n / 16) (by omega)
  have hlow := digitValue?_digitChar (n % 16) (by omega)
  have hsum : 4096 * 0 + 256 * 0 + 16 * (n / 16) + n % 16 = n := by omega
  simp only [hexNumber?, hzero, hhigh, hlow, bind, Option.bind, pure]
  exact congrArg some hsum

/-- The mark at which a string is closed. -/
theorem textUnits_quote (rest : List Char) : textUnits ('"' :: rest) = some ([], rest) := by
  rw [textUnits.eq_def]
  rfl

/-- A character with an escape of one letter. -/
theorem textUnits_letter {e c : Char} (hu : e ≠ 'u') (he : escape? e = some c) (rest : List Char) :
    textUnits ('\\' :: e :: rest) =
      (textUnits rest).map fun (units, rest) => (.char c :: units, rest) := by
  rw [textUnits.eq_def]
  split
  · rename_i h
    cases h
  · rename_i h
    exact absurd (List.cons.inj h).1 (by decide)
  · rename_i h
    exact absurd (List.cons.inj (List.cons.inj h).2).1 hu
  · rename_i h
    obtain ⟨rfl, rfl⟩ := List.cons.inj (List.cons.inj h).2
    rw [he]
    cases textUnits rest <;> rfl
  · rename_i hne h
    obtain ⟨rfl, rfl⟩ := List.cons.inj h
    exact (hne e rest rfl rfl).elim

/-- A character that stands for itself. -/
theorem textUnits_plain {c : Char} (hq : c ≠ '"') (hs : c ≠ '\\') (hc : ¬ c.toNat < 0x20)
    (rest : List Char) : textUnits (c :: rest) =
      (textUnits rest).map fun (units, rest) => (.char c :: units, rest) := by
  rw [textUnits.eq_def]
  split
  · rename_i h
    cases h
  · rename_i h
    exact absurd (List.cons.inj h).1 hq
  · rename_i h
    exact absurd (List.cons.inj h).1 hs
  · rename_i h
    exact absurd (List.cons.inj h).1 hs
  · rename_i h
    obtain ⟨rfl, rfl⟩ := List.cons.inj h
    rw [if_neg hc]
    cases textUnits rest <;> rfl

/-- A control character with an escape of its number. -/
theorem textUnits_control {c : Char} (hc : c.toNat < 0x20) (rest : List Char) :
    textUnits ('\\' :: 'u' :: '0' :: '0' :: Nat.digitChar (c.toNat / 16) ::
        Nat.digitChar (c.toNat % 16) :: rest) =
      (textUnits rest).map fun (units, rest) => (.char c :: units, rest) := by
  have hunit : TextUnit.ofNumber c.toNat = .char c := by
    rw [TextUnit.ofNumber, if_neg (by omega), Char.ofNat_toNat]
  rw [textUnits.eq_def]
  simp only [hexNumber?_control hc, bind, Option.bind_some, hunit]
  cases textUnits rest <;> rfl

/-- A character of a string is written in one of three ways. -/
theorem escapedChar_cases (c : Char) :
    (∃ e, escapedChar c = ['\\', e] ∧ e ≠ 'u' ∧ escape? e = some c) ∨
    (c.toNat < 0x20 ∧ escapedChar c = ['\\', 'u', '0', '0', Nat.digitChar (c.toNat / 16),
      Nat.digitChar (c.toNat % 16)]) ∨
    (escapedChar c = [c] ∧ c ≠ '"' ∧ c ≠ '\\' ∧ ¬ c.toNat < 0x20) := by
  by_cases hletter : c ∈ ['"', '\\', '\x08', '\x0c', '\n', '\r', '\t']
  · simp only [List.mem_cons, List.not_mem_nil, or_false] at hletter
    rcases hletter with rfl | rfl | rfl | rfl | rfl | rfl | rfl <;>
      exact .inl ⟨_, rfl, by decide, rfl⟩
  · simp only [List.mem_cons, List.not_mem_nil, or_false, not_or] at hletter
    obtain ⟨hq, hs, hb, hf, hn, hr, ht⟩ := hletter
    rw [escapedChar, if_neg hq, if_neg hs, if_neg hb, if_neg hf, if_neg hn, if_neg hr, if_neg ht]
    by_cases hc : c.toNat < 0x20
    · exact .inr (.inl ⟨hc, if_pos hc⟩)
    · exact .inr (.inr ⟨if_neg hc, hq, hs, hc⟩)

/-- Reading takes off one character of a string after the other. -/
theorem textUnits_escapedChar (c : Char) (rest : List Char) :
    textUnits (escapedChar c ++ rest) =
      (textUnits rest).map fun (units, rest) => (.char c :: units, rest) := by
  rcases escapedChar_cases c with ⟨e, hchars, hu, he⟩ | ⟨hc, hchars⟩ | ⟨hchars, hq, hs, hc⟩ <;>
    rw [hchars]
  · exact textUnits_letter hu he rest
  · exact textUnits_control hc rest
  · exact textUnits_plain hq hs hc rest

theorem joinUnits_map_char (cs : List Char) : joinUnits (cs.map .char) = some cs := by
  induction cs with
  | nil => rfl
  | cons c cs ih =>
    rw [List.map_cons, joinUnits, ih]
    rfl

/-- A string is read up to its closing mark. -/
theorem string_escaped (s : String) (rest : List Char) :
    string (s.toList.flatMap escapedChar ++ '"' :: rest) = some (some s, rest) := by
  have hunits : ∀ cs : List Char,
      textUnits (cs.flatMap escapedChar ++ '"' :: rest) = some (cs.map .char, rest) := by
    intro cs
    induction cs with
    | nil => rw [List.flatMap_nil, List.nil_append, textUnits_quote, List.map_nil]
    | cons c cs ih =>
      rw [List.flatMap_cons, List.append_assoc, textUnits_escapedChar, ih]
      rfl
  simp only [string, hunits, bind, Option.bind_some, joinUnits_map_char]
  exact congrArg (fun s => some (some s, rest)) String.ofList_toList

/-! ## Integers -/

/-- What may follow a value inside another, or nothing. -/
def Ends (rest : List Char) : Prop := ∀ c ∈ rest.head?, c = ',' ∨ c = ']' ∨ c = '\x7d'

theorem ends_cons {c : Char} (h : c = ',' ∨ c = ']' ∨ c = '\x7d') (rest : List Char) :
    Ends (c :: rest) := fun _ hd => Option.some.inj hd ▸ h

theorem Ends.cases {rest : List Char} (h : Ends rest) :
    rest = [] ∨ ∃ c rest', rest = c :: rest' ∧ (c = ',' ∨ c = ']' ∨ c = '\x7d') := by
  cases rest with
  | nil => exact .inl rfl
  | cons c rest => exact .inr ⟨c, rest, rfl, h c rfl⟩

/-- Neither digits nor a fraction nor an exponent follow a value. -/
theorem Ends.number {rest : List Char} (h : Ends rest) : rest.takeWhile Char.isDigit = [] ∧
    rest.dropWhile Char.isDigit = rest ∧ fraction rest = some ([], rest) ∧
    exponent rest = some ([], rest) := by
  rcases h.cases with rfl | ⟨c, rest, rfl, rfl | rfl | rfl⟩ <;> exact ⟨rfl, rfl, rfl, rfl⟩

/-- Only zero has a leading zero. -/
theorem head?_toDigits {n : Nat} (h : (Nat.toDigits 10 n).head? = some '0') : n = 0 := by
  induction n using Nat.strongRecOn with
  | ind n ih =>
    by_cases hn : n < 10
    · rw [Nat.toDigits_of_lt_base hn] at h
      have hdigit : ∀ m < 10, Nat.digitChar m = '0' → m = 0 := by decide
      exact hdigit n hn (Option.some.inj h)
    · have hne : Nat.toDigits 10 (n / 10) ≠ [] := Nat.toDigits_ne_nil
      obtain ⟨c, cs, hcs⟩ := List.exists_cons_of_ne_nil hne
      rw [Nat.toDigits_of_base_le (by decide) (Nat.not_lt.1 hn), hcs, List.cons_append,
        List.head?_cons] at h
      have hzero := ih (n / 10) (by omega) (by rw [hcs, List.head?_cons, h])
      omega

/-- The digits of a number are read, with the sign that stood before them. -/
theorem unsigned_toDigits {negative : Bool} {n : Nat} (hn : ¬ (negative = true ∧ n = 0))
    {rest : List Char} (hrest : Ends rest) : unsigned negative (Nat.toDigits 10 n ++ rest) =
      some (.integer (if negative then -n else n), rest) := by
  obtain ⟨htake, hdrop, hfraction, hexponent⟩ := hrest.number
  have hdigits : ∀ c ∈ Nat.toDigits 10 n, c.isDigit = true := fun c hc =>
    Nat.isDigit_of_mem_toDigits (by decide) (by decide) hc
  have hwhole : (Nat.toDigits 10 n ++ rest).takeWhile Char.isDigit = Nat.toDigits 10 n := by
    rw [List.takeWhile_append_of_pos hdigits, htake, List.append_nil]
  have hbehind : (Nat.toDigits 10 n ++ rest).dropWhile Char.isDigit = rest := by
    rw [List.dropWhile_append_of_pos hdigits, hdrop]
  have hvalue := Decimal.digitsValue_toDigits n
  have hlead : ¬ (Nat.toDigits 10 n = [] ∨
      ((Nat.toDigits 10 n).head? = some '0' ∧ (Nat.toDigits 10 n).tail ≠ [])) := by
    rintro (h | ⟨h, htail⟩)
    · exact absurd h Nat.toDigits_ne_nil
    · obtain rfl := head?_toDigits h
      exact htail rfl
  simp only [unsigned, hwhole, hbehind, if_neg hlead, hfraction, hexponent, hvalue, bind,
    Option.bind_some, hn, not_false_eq_true, and_self, if_true, pure]

/-! ## Values -/

/-- The reader takes the written form of a value off the front of any text in which it ends. -/
structure ReadsBack (j : Json) : Prop where
  head : ∃ c cs, j.chars = c :: cs ∧ isBlank c = false ∧ c ≠ ']'
  value : ∀ {fuel : Nat} {rest : List Char}, 2 * j.chars.length ≤ fuel → Ends rest →
    value fuel (j.chars ++ rest) = some (j, rest)

theorem skipBlanks_cons {c : Char} (h : isBlank c = false) (cs : List Char) :
    skipBlanks (c :: cs) = c :: cs := by
  rw [skipBlanks, List.dropWhile_cons, h]
  rfl

/-- There is fuel for the first step. -/
theorem exists_fuel {n fuel : Nat} (h : n < fuel) : ∃ f, fuel = f + 1 ∧ n ≤ f :=
  ⟨fuel - 1, by omega, by omega⟩

theorem ReadsBack.text (s : String) : (Json.text s).ReadsBack where
  head := ⟨'"', _, rfl, rfl, by decide⟩
  value := by
    intro fuel rest hfuel _
    have hlen : 0 < (Json.text s).chars.length := Nat.succ_pos _
    obtain ⟨fuel, rfl, -⟩ := exists_fuel (Nat.lt_of_lt_of_le (Nat.mul_pos Nat.two_pos hlen) hfuel)
    have hchars : (Json.text s).chars ++ rest =
        '"' :: (s.toList.flatMap escapedChar ++ '"' :: rest) := by
      simp [chars, stringChars]
    rw [hchars, Json.value, skipBlanks_cons (by decide)]
    simp only [string_escaped, bind, Option.bind_some, Option.elim, pure]

/-- The written form of an integer is its digits, behind a sign if it is negative. -/
theorem chars_integer (n : Int) : (Json.integer n).chars =
    if n < 0 then '-' :: Nat.toDigits 10 n.natAbs else Nat.toDigits 10 n.natAbs :=
  Decimal.toList_toString n

theorem isBlank_eq_false {c : Char} (h : c.isDigit = true ∨ c = '-') : isBlank c = false := by
  rw [Bool.eq_false_iff]
  intro hblank
  simp only [isBlank, Bool.or_eq_true, decide_eq_true_eq] at hblank
  rcases hblank with ((rfl | rfl) | rfl) | rfl <;> exact absurd h (by decide)

/-- A value that begins with a digit or a sign is a number. -/
theorem value_number {c : Char} (h : c.isDigit = true ∨ c = '-') (fuel : Nat) (cs : List Char) :
    Json.value (fuel + 1) (c :: cs) = number (c :: cs) := by
  rw [Json.value, skipBlanks_cons (isBlank_eq_false h)]
  split <;>
    first
      | rfl
      | (rename_i heq
         obtain ⟨rfl, -⟩ := List.cons.inj heq
         exact absurd h (by decide))

/-- A number without a sign. -/
theorem number_unsigned {c : Char} (h : c.isDigit = true) (cs : List Char) :
    number (c :: cs) = unsigned false (c :: cs) := by
  unfold number
  split
  · rename_i heq
    obtain ⟨rfl, -⟩ := List.cons.inj heq
    exact absurd h (by decide)
  · rfl

theorem ReadsBack.integer (n : Int) : (Json.integer n).ReadsBack := by
  have hchars := chars_integer n
  by_cases hn : n < 0
  · rw [if_pos hn] at hchars
    refine ⟨⟨_, _, hchars, by decide, by decide⟩, ?_⟩
    intro fuel rest hfuel hrest
    rw [hchars, List.length_cons] at hfuel
    have hpos : 0 < fuel := by omega
    obtain ⟨fuel, rfl, -⟩ := exists_fuel hpos
    rw [hchars, List.cons_append, value_number (.inr rfl)]
    show unsigned true (Nat.toDigits 10 n.natAbs ++ rest) = _
    have habs : -(n.natAbs : Int) = n := by omega
    rw [unsigned_toDigits (by omega) hrest, if_pos rfl, habs]
  · rw [if_neg hn] at hchars
    have hne : Nat.toDigits 10 n.natAbs ≠ [] := Nat.toDigits_ne_nil
    obtain ⟨c, cs, hcs⟩ := List.exists_cons_of_ne_nil hne
    have hc : c.isDigit = true :=
      Nat.isDigit_of_mem_toDigits (by decide) (by decide) (hcs ▸ List.mem_cons_self)
    refine ⟨⟨c, cs, hchars.trans hcs, ?_, ?_⟩, ?_⟩
    · exact isBlank_eq_false (.inl hc)
    · rintro rfl
      exact absurd hc (by decide)
    · intro fuel rest hfuel hrest
      rw [hchars, hcs, List.length_cons] at hfuel
      have hpos : 0 < fuel := by omega
      obtain ⟨fuel, rfl, -⟩ := exists_fuel hpos
      rw [hchars, hcs, List.cons_append, value_number (.inl hc), number_unsigned hc,
        ← List.cons_append, ← hcs, unsigned_toDigits (by simp) hrest, if_neg Bool.false_ne_true,
        Int.natAbs_of_nonneg (Int.not_lt.1 hn)]

theorem itemChars_cons {x : Json} {xs : List Json} (h : xs ≠ []) :
    itemChars (x :: xs) = x.chars ++ ',' :: itemChars xs := by
  cases xs with
  | nil => exact absurd rfl h
  | cons y ys => rfl

/-- Items are read up to the closing bracket. -/
theorem items_itemChars {xs : List Json} (hne : xs ≠ []) (h : ∀ x ∈ xs, x.ReadsBack) {fuel : Nat}
    (hfuel : 2 * (itemChars xs).length < fuel) (rest : List Char) :
    items fuel (itemChars xs ++ ']' :: rest) = some (xs, rest) := by
  -- Each item takes one step of fuel, and fewer than the characters it is written with.
  induction xs generalizing fuel with
  | nil => exact absurd rfl hne
  | cons x xs ih =>
    obtain ⟨fuel, rfl, hf⟩ := exists_fuel hfuel
    have hx := h x List.mem_cons_self
    by_cases hxs : xs = []
    · subst hxs
      have hvalue := hx.value hf (ends_cons (.inr (.inl rfl)) rest)
      rw [items, itemChars, hvalue]
      simp only [bind, Option.bind_some]
      rw [skipBlanks_cons (by decide)]
      rfl
    · rw [itemChars_cons hxs, List.length_append, List.length_cons] at hf
      have hlen : 2 * x.chars.length ≤ fuel := by omega
      have hvalue := hx.value hlen (ends_cons (.inl rfl) (itemChars xs ++ ']' :: rest))
      have hlen' : 2 * (itemChars xs).length < fuel := by omega
      have hitems := ih hxs (fun y hy => h y (List.mem_cons_of_mem _ hy)) hlen'
      rw [items, itemChars_cons hxs, List.append_assoc, List.cons_append, hvalue]
      simp only [bind, Option.bind_some]
      rw [skipBlanks_cons (by decide)]
      simp only [hitems, Option.bind_some, pure]

theorem ReadsBack.array {xs : List Json} (h : ∀ x ∈ xs, x.ReadsBack) :
    (Json.array xs).ReadsBack where
  head := ⟨'[', _, rfl, rfl, by decide⟩
  value := by
    intro fuel rest hfuel _
    have hchars : (Json.array xs).chars = '[' :: (itemChars xs ++ [']']) := rfl
    rw [hchars, List.length_cons, List.length_append, List.length_singleton] at hfuel
    have hlt : 2 * (itemChars xs).length + 1 < fuel := by omega
    obtain ⟨fuel, rfl, hf⟩ := exists_fuel hlt
    rw [hchars, List.cons_append, List.append_assoc, List.singleton_append, Json.value,
      skipBlanks_cons (by decide)]
    by_cases hxs : xs = []
    · subst hxs
      rfl
    · have hitems := items_itemChars hxs h hf rest
      -- The first item does not begin with the closing bracket.
      obtain ⟨x, tail, rfl⟩ := List.exists_cons_of_ne_nil hxs
      obtain ⟨c, cs, hcs, hblank, hc⟩ := (h x List.mem_cons_self).head
      have hhead : ∃ cs, itemChars (x :: tail) = c :: cs := by
        by_cases htail : tail = []
        · subst htail
          exact ⟨cs, hcs⟩
        · exact ⟨_, by rw [itemChars_cons htail, hcs, List.cons_append]⟩
      obtain ⟨cs', hcs'⟩ := hhead
      simp only
      rw [hcs', List.cons_append, skipBlanks_cons hblank]
      rw [hcs', List.cons_append] at hitems
      simp only [hitems, bind, Option.bind_some, pure]
      split
      · rename_i heq
        exact absurd (List.cons.inj heq).1 hc
      · rfl

theorem memberChars_cons {m : String × Json} {ms : List (String × Json)} (h : ms ≠ []) :
    memberChars (m :: ms) = stringChars m.1 ++ ':' :: m.2.chars ++ ',' :: memberChars ms := by
  cases ms with
  | nil => exact absurd rfl h
  | cons m' ms => rfl

/-- Members are read up to the closing brace. -/
theorem members_memberChars {ms : List (String × Json)} (hne : ms ≠ [])
    (h : ∀ m ∈ ms, m.2.ReadsBack) {fuel : Nat} (hfuel : 2 * (memberChars ms).length < fuel)
    (rest : List Char) : members fuel (memberChars ms ++ '\x7d' :: rest) =
      some (ms.map fun m => (some m.1, m.2), rest) := by
  induction ms generalizing fuel with
  | nil => exact absurd rfl hne
  | cons m ms ih =>
    obtain ⟨fuel, rfl, hf⟩ := exists_fuel hfuel
    have hm := h m List.mem_cons_self
    have hkey : ∀ tail, stringChars m.1 ++ tail =
        '"' :: (m.1.toList.flatMap escapedChar ++ '"' :: tail) := by
      intro tail
      rw [stringChars, List.cons_append, List.cons_append, List.append_assoc,
        List.singleton_append]
    by_cases hms : ms = []
    · subst hms
      have hchars : memberChars [m] = stringChars m.1 ++ ':' :: m.2.chars := rfl
      rw [hchars, List.length_append, List.length_cons] at hf
      have hlen : 2 * m.2.chars.length ≤ fuel := by omega
      have hvalue := hm.value hlen (ends_cons (.inr (.inr rfl)) rest)
      rw [members, hchars, List.append_assoc, hkey, skipBlanks_cons (by decide)]
      simp only [string_escaped, bind, Option.bind_some, List.cons_append]
      rw [skipBlanks_cons (by decide)]
      simp only [hvalue, Option.bind_some]
      rw [skipBlanks_cons (by decide)]
      rfl
    · rw [memberChars_cons hms, List.length_append, List.length_append, List.length_cons,
        List.length_cons] at hf
      have hlen : 2 * m.2.chars.length ≤ fuel := by omega
      have hvalue := hm.value hlen (ends_cons (.inl rfl) (memberChars ms ++ '\x7d' :: rest))
      have hlen' : 2 * (memberChars ms).length < fuel := by omega
      have hmembers := ih hms (fun m' hm' => h m' (List.mem_cons_of_mem _ hm')) hlen'
      rw [members, memberChars_cons hms, List.append_assoc, List.append_assoc, hkey,
        skipBlanks_cons (by decide)]
      simp only [string_escaped, bind, Option.bind_some, List.cons_append]
      rw [skipBlanks_cons (by decide)]
      simp only [hvalue, Option.bind_some]
      rw [skipBlanks_cons (by decide)]
      simp only [hmembers, Option.bind_some, pure, List.map_cons]

theorem ofMembers_map (ms : List (String × Json)) :
    ofMembers (ms.map fun m => (some m.1, m.2)) = .object ms := by
  have hmapM : ∀ f : Option String × Json → Option (String × Json),
      (∀ m : String × Json, f (some m.1, m.2) = some m) →
      (ms.map fun m => (some m.1, m.2)).mapM f = some ms := by
    intro f hf
    induction ms with
    | nil => rfl
    | cons m ms ih =>
      rw [List.map_cons, List.mapM_cons, ih, hf]
      rfl
  rw [ofMembers, hmapM _ fun _ => rfl]

theorem ReadsBack.object {ms : List (String × Json)} (h : ∀ m ∈ ms, m.2.ReadsBack) :
    (Json.object ms).ReadsBack where
  head := ⟨'\x7b', _, rfl, rfl, by decide⟩
  value := by
    intro fuel rest hfuel _
    have hchars : (Json.object ms).chars = '\x7b' :: (memberChars ms ++ ['\x7d']) := rfl
    rw [hchars, List.length_cons, List.length_append, List.length_singleton] at hfuel
    have hlt : 2 * (memberChars ms).length + 1 < fuel := by omega
    obtain ⟨fuel, rfl, hf⟩ := exists_fuel hlt
    rw [hchars, List.cons_append, List.append_assoc, List.singleton_append, Json.value,
      skipBlanks_cons (by decide)]
    by_cases hms : ms = []
    · subst hms
      rfl
    · have hmembers := members_memberChars hms h hf rest
      -- The first key begins with a quotation mark.
      obtain ⟨m, tail, rfl⟩ := List.exists_cons_of_ne_nil hms
      have hhead : ∃ cs, memberChars (m :: tail) = '"' :: cs := by
        by_cases htail : tail = []
        · subst htail
          exact ⟨_, rfl⟩
        · exact ⟨_, memberChars_cons htail⟩
      obtain ⟨cs, hcs⟩ := hhead
      simp only
      rw [hcs, List.cons_append, skipBlanks_cons (by decide)]
      rw [hcs, List.cons_append] at hmembers
      simp only [hmembers, ofMembers_map, bind, Option.bind_some, pure]
      rfl

/-- **A text that was written is read back.** The reader is given fuel by the length of the text,
which is more than the nesting of the value needs. -/
theorem ReadsBack.read?_write {j : Json} (h : j.ReadsBack) : read? j.write = some j := by
  have hchars : j.write.toList = j.chars := String.toList_ofList
  have hends : Ends [] := fun c hc => by cases hc
  have hvalue : Json.value (2 * j.chars.length + 2) (j.chars ++ []) = some (j, []) :=
    h.value (Nat.le_add_right _ 2) hends
  rw [List.append_nil] at hvalue
  rw [read?, hchars, hvalue]
  rfl

end Json
end TxIndex
