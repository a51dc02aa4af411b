import TxIndex.Proofs.Query.Scanner
import TxIndex.Proofs.Query.Tokens

/-! # Scans that follow a reader

A scan is compared with a reader of characters step by step. `Query.Stands` is what every step
keeps: the cursor stands at a cut of the source, behind such cuts in order. `Query.Follows` says of
a step that it keeps this and answers as the reader does; it holds of what is composed of such steps
(`Query.Follows.bind`), and of moving over a class of characters of one byte
(`Query.follows_takeWhile`).

Where bytes and characters differ is dealt with here and nowhere else. All classes that the scanner
tests byte by byte consist of characters of one byte (`Query.IsAscii`), and no byte of a longer
character is one of these, so a test of a byte at a cut is a test of the character behind it
(`Query.any_onByte`). -/
namespace TxIndex
namespace Query

open Utf8 (bytesOf Cut)

variable {α β : Type} {source : String} {c : Cursor} {cs rest w : List Char} {p : Char → Bool}

/-! ## Bytes and characters of a class -/

/-- The class has only characters of one byte. -/
def IsAscii (p : Char → Bool) : Prop := ∀ c, p c = true → c.toNat < 0x80

theorem toNat_le_of_le {c d : Char} (h : c ≤ d) : c.toNat ≤ d.toNat := h

/-- All characters are of one byte. -/
def AllAscii (cs : List Char) : Prop := cs.all (·.toNat < 0x80) = true

instance : Decidable (AllAscii cs) := inferInstanceAs (Decidable (_ = true))

theorem allAscii_iff : AllAscii cs ↔ ∀ c ∈ cs, c.toNat < 0x80 := by
  simp [AllAscii]

theorem isAscii_isBlank : IsAscii isBlank := by
  intro c hc
  have hblanks : AllAscii blanks := by decide
  exact allAscii_iff.1 hblanks c (isBlank_iff.1 hc)

theorem isAscii_isTagChar : IsAscii isTagChar := by
  intro c hc
  have hmarks : AllAscii ['.', '_', '-'] := by decide
  rcases isTagChar_iff.1 hc with ⟨-, h⟩ | ⟨-, h⟩ | ⟨-, h⟩ | h
  · exact Nat.lt_of_le_of_lt (toNat_le_of_le h) (by decide)
  · exact Nat.lt_of_le_of_lt (toNat_le_of_le h) (by decide)
  · exact Nat.lt_of_le_of_lt (toNat_le_of_le h) (by decide)
  · exact allAscii_iff.1 hmarks c h

theorem isAscii_isNumberChar : IsAscii isNumberChar :=
  fun c hc => isAscii_isTagChar c (isTagChar_of_isNumberChar hc)

theorem toNat_ofNat_of_ascii {c : Char} (h : c.toNat < 0x80) :
    (UInt8.ofNat c.toNat).toNat = c.toNat := by
  rw [UInt8.toNat_ofNat']
  exact Nat.mod_eq_of_lt (by omega)

/-- The first byte tells whether the first character is of a class. -/
theorem any_onByte (hp : IsAscii p) (cs : List Char) :
    (bytesOf cs).head?.any (onByte p) = cs.head?.any p := by
  cases cs with
  | nil => rfl
  | cons c cs =>
    by_cases hc : c.toNat < 0x80
    · have hlt : UInt8.ofNat c.toNat < 0x80 := by
        rw [UInt8.lt_iff_toNat_lt, toNat_ofNat_of_ascii hc]
        exact hc
      simp [Utf8.utf8EncodeChar_ascii hc, onByte, hlt, toNat_ofNat_of_ascii hc, Char.ofNat_toNat]
    · obtain ⟨b, bs, hb, -⟩ := Utf8.exists_utf8EncodeChar c
      have hle : 0x80 ≤ b :=
        Utf8.le_of_mem_utf8EncodeChar (Nat.not_lt.1 hc) b (hb ▸ List.mem_cons_self)
      have hout : p c = false := Bool.eq_false_iff.2 fun h => hc (hp c h)
      simp [hb, onByte, hout, UInt8.not_lt.2 hle]

theorem ne_of_mem_bytesOf (hw : apostrophe ∉ w) : ∀ b ∈ bytesOf w, b ≠ 0x27 := by
  intro b hb
  obtain ⟨c, hc, hb⟩ := List.mem_flatMap.1 hb
  have hne : c ≠ apostrophe := fun h => hw (h ▸ hc)
  by_cases hsmall : c.toNat < 0x80
  · rw [Utf8.utf8EncodeChar_ascii hsmall, List.mem_singleton] at hb
    rintro rfl
    refine hne (Char.toNat_inj.1 ?_)
    have := congrArg UInt8.toNat hb
    rw [toNat_ofNat_of_ascii hsmall] at this
    exact this.symm
  · rintro rfl
    exact absurd (Utf8.le_of_mem_utf8EncodeChar (Nat.not_lt.1 hsmall) _ hb) (by decide)

/-! ## What every step keeps -/

/-- The cursor stands before the characters, behind cuts of the source in order from its start
on. -/
structure Stands (source : String) (c : Cursor) (cs : List Char) : Prop where
  cut : Cut source c.pos cs
  past_cut : ∀ p ∈ c.past, ∃ rest, Cut source p rest
  from_start : c.trail.getLast? = some 0
  ordered : c.trail.Pairwise (· ≥ ·)
  logged : ∀ r ∈ c.rounds, r ∈ c.trail

theorem Stands.moveTo (h : Stands source c (w ++ rest)) {pos : Nat}
    (hpos : pos = c.pos + (bytesOf w).length) :
    Stands source { c with pos := pos, past := c.trail } rest where
  cut := hpos ▸ h.cut.advance
  past_cut := List.forall_mem_cons.2 ⟨⟨_, h.cut⟩, h.past_cut⟩
  from_start := List.getLast?_cons_cons.trans h.from_start
  ordered := by
    have hle : c.pos ≤ pos := hpos ▸ Nat.le_add_right _ _
    refine List.pairwise_cons.2 ⟨List.forall_mem_cons.2 ⟨hle, fun p hp => ?_⟩, h.ordered⟩
    exact Nat.le_trans ((List.pairwise_cons.1 h.ordered).1 p hp) hle
  logged := fun r hr => List.mem_cons_of_mem _ (h.logged r hr)

theorem Stands.beginRound (h : Stands source c cs) :
    Stands source { c with rounds := c.pos :: c.rounds } cs where
  cut := h.cut
  past_cut := h.past_cut
  from_start := h.from_start
  ordered := h.ordered
  logged := List.forall_mem_cons.2 ⟨List.mem_cons_self, h.logged⟩

/-- What takes a part off the front of the characters left. -/
abbrev Reader (α : Type) := List Char → Except Refusal (α × List Char)

/-- What a reader says if a scan gives the answer, standing before the rest. -/
def report (answer : Except Fault α) (rest : List Char) : Except Refusal (α × List Char) :=
  match answer with
  | .ok a => .ok (a, rest)
  | .error fault => .error ⟨fault, rest⟩

theorem report_eq_ok {answer : Except Fault α} {a : α} {cs : List Char} :
    Except.ok (a, cs) = report answer rest ↔ answer = .ok a ∧ rest = cs := by
  cases answer <;> simp [report, eq_comm]

theorem report_eq_error {answer : Except Fault α} {refusal : Refusal} :
    Except.error refusal = report answer rest ↔
      ∃ fault, answer = .error fault ∧ refusal = ⟨fault, rest⟩ := by
  cases answer <;> simp [report, eq_comm]

/-- Wherever it stands, the scan comes to an end, standing as safely as before, and answers what the
reader says of the characters left. -/
def Follows (source : String) (f : Scan α) (g : Reader α) : Prop :=
  ∀ ⦃c cs⦄, Stands source c cs → ∃ answer c' rest, f.run.run c = some (answer, c') ∧
    Stands source c' rest ∧ c'.rounds = c.rounds ∧ g cs = report answer rest

namespace Follows

variable {f f' : Scan α} {g g' : Reader α} {k : α → Scan β}

theorem congr (h : Follows source f g) (heq : ∀ cs, g cs = g' cs) : Follows source f g' :=
  funext heq ▸ h

theorem pure (a : α) : Follows source (pure a : Scan α) fun cs => .ok (a, cs) :=
  fun c cs hs => ⟨.ok a, c, cs, rfl, hs, rfl, rfl⟩

theorem throw (fault : Fault) :
    Follows source (throw fault : Scan α) fun cs => .error ⟨fault, cs⟩ :=
  fun c cs hs => ⟨.error fault, c, cs, rfl, hs, rfl, rfl⟩

theorem bind (h : Follows source f g) (n : α → Reader β)
    (hk : ∀ a, Follows source (k a) (n a)) :
    Follows source (f >>= k) fun cs => g cs >>= fun r => n r.1 r.2 := by
  intro c cs hs
  obtain ⟨answer, c₁, rest₁, hrun₁, hs₁, hrounds₁, hread₁⟩ := h hs
  cases answer with
  | error fault =>
    refine ⟨.error fault, c₁, rest₁, ?_, hs₁, hrounds₁, ?_⟩
    · rw [run_bind, hrun₁]
      rfl
    · simp only [hread₁]
      rfl
  | ok a =>
    obtain ⟨answer, c₂, rest₂, hrun₂, hs₂, hrounds₂, hread₂⟩ := hk a hs₁
    refine ⟨answer, c₂, rest₂, ?_, hs₂, hrounds₂.trans hrounds₁, ?_⟩
    · rw [run_bind, hrun₁]
      exact hrun₂
    · simp only [hread₁]
      exact hread₂

theorem ite {b : Prop} [Decidable b] (h : Follows source f g) (h' : Follows source f' g') :
    Follows source (if b then f else f') fun cs => if b then g cs else g' cs := by
  by_cases hb : b
  · simpa only [if_pos hb] using h
  · simpa only [if_neg hb] using h'

end Follows

/-! ## Runs -/

/-- Passing single bytes passes whole characters, since no part of a longer character is of the
class. -/
theorem run_passOver (hp : IsAscii p) (hs : Stands source c cs) :
    ∃ c', (Scan.passOver p (bytesOf cs)).run.run c = some (.ok (), c') ∧
      Stands source c' (cs.dropWhile p) ∧ c'.rounds = c.rounds := by
  induction cs generalizing c with
  | nil => exact ⟨c, rfl, hs, rfl⟩
  | cons a cs ih =>
    by_cases ha : p a = true
    · have hbytes : bytesOf (a :: cs) = UInt8.ofNat a.toNat :: bytesOf cs := by
        simp [Utf8.utf8EncodeChar_ascii (hp a ha)]
      have hin := any_onByte hp (a :: cs)
      rw [hbytes, List.head?_cons, Option.any_some, List.head?_cons, Option.any_some, ha] at hin
      have hs' : Stands source { c with pos := c.pos + 1, past := c.trail } cs := by
        refine Stands.moveTo (w := [a]) hs ?_
        simp [Utf8.utf8EncodeChar_ascii (hp a ha)]
      obtain ⟨c', hrun, hstands, hrounds⟩ := ih hs'
      refine ⟨c', ?_, ?_, hrounds⟩
      · rw [hbytes, Scan.passOver, if_pos hin, run_bind, run_here, Option.bind_some]
        exact hrun
      · rwa [List.dropWhile_cons_of_pos ha]
    · obtain ⟨b, bs, hb, -⟩ := Utf8.exists_utf8EncodeChar a
      have hbytes : bytesOf (a :: cs) = b :: (bs ++ bytesOf cs) := by
        rw [Utf8.bytesOf_cons, hb, List.cons_append]
      have hout := any_onByte hp (a :: cs)
      rw [hbytes, List.head?_cons, Option.any_some, List.head?_cons, Option.any_some] at hout
      refine ⟨c, ?_, ?_, rfl⟩
      · rw [hbytes, Scan.passOver, hout, if_neg ha]
        rfl
      · rwa [List.dropWhile_cons_of_neg ha]

theorem run_passWhile (hp : IsAscii p) (hs : Stands source c cs) :
    ∃ c', (Scan.passWhile source p).run.run c = some (.ok (), c') ∧
      Stands source c' (cs.dropWhile p) ∧ c'.rounds = c.rounds := by
  obtain ⟨c', hrun, hs', hrounds⟩ := run_passOver hp hs
  refine ⟨c', ?_, hs', hrounds⟩
  rw [Scan.passWhile, run_bind, run_here, Option.bind_some]
  simp only [hs.cut.drop_eq, hrun]

/-- What is sliced out behind a run is the run. -/
theorem follows_takeWhile (hp : IsAscii p) : Follows source (Scan.takeWhile source p)
    fun cs => .ok (String.ofList (cs.takeWhile p), cs.dropWhile p) := by
  intro c cs hs
  obtain ⟨c', hrun, hs', hrounds⟩ := run_passWhile hp hs
  have hslice : Utf8.slice source c.pos c'.pos = some (String.ofList (cs.takeWhile p)) := by
    refine Cut.slice ?_ hs'.cut
    rw [List.takeWhile_append_dropWhile]
    exact hs.cut
  refine ⟨.ok _, c', _, ?_, hs', hrounds, rfl⟩
  simp only [Scan.takeWhile, run_bind, run_here, hrun, hslice, run_slice, Option.bind_some]

theorem follows_skipBlanks :
    Follows source (Scan.skipBlanks source) fun cs => .ok ((), skipBlanks cs) :=
  (follows_takeWhile isAscii_isBlank).bind (fun _ cs => .ok ((), cs)) fun _ => Follows.pure ()

/-! ## What stands at a place -/

theorem run_rest (h : Cut source c.pos cs) :
    (Scan.rest source).run.run c = some (.ok (String.ofList cs), c) := by
  simp only [Scan.rest, run_bind, run_here, Option.bind_some, h.slice_end, run_slice]

theorem run_atEnd (h : Cut source c.pos cs) :
    (Scan.atEnd source).run.run c = some (.ok (decide (cs = [])), c) := by
  simp only [Scan.atEnd, run_bind, run_here, Option.bind_some, run_pure, h.size_le_iff]

theorem run_sees (h : Cut source c.pos cs) (symbol : String) :
    (Scan.sees source symbol).run.run c = some (.ok (symbol.toList.isPrefixOf cs), c) := by
  have hprefix : (Utf8.encode symbol).isPrefixOf (bytesOf cs) = symbol.toList.isPrefixOf cs := by
    rw [Bool.eq_iff_iff, List.isPrefixOf_iff_prefix, List.isPrefixOf_iff_prefix,
      Utf8.encode_eq_bytesOf, Utf8.bytesOf_prefix_iff]
  simp only [Scan.sees, run_bind, run_rest h, Option.bind_some, run_pure, Utf8.encode_ofList,
    hprefix]

end Query
end TxIndex
