import TxIndex.Proofs.Text.Accepted
import TxIndex.Proofs.Wire.Lengths

/-! # Writing what was read

A codec is canonical if whatever bytes it reads a value from begin with the written form of that
value. Words are canonical, and so is what is put together from canonical codecs, since counts,
truth values and texts have one form each. Together with the converse, that what was written is read
back, this makes the binary forms of transactions, messages and results exact
(`Encoding.codecs_exact`).

Codecs are put together from four makers, a word, a refinement, a pair and a counted list, and so is
the proof: one lemma for each maker (`Wire.Codec.Canonical.refine`, `Wire.Codec.Canonical.pair`,
`Wire.Codec.Canonical.list`), and one line for each type. A type that changes its members changes
that line. -/
namespace TxIndex
namespace Wire

/-- A computation in two steps succeeds if both do. -/
theorem bind_eq_ok {ε α β : Type} {x : Except ε α} {f : α → Except ε β} {b : β}
    (h : x >>= f = .ok b) : ∃ a, x = .ok a ∧ f a = .ok b := by
  cases x with
  | error fault => cases h
  | ok a => exact ⟨a, rfl, h⟩

theorem lowBytes_of_takeNat {width n : Nat} {bs rest : List UInt8}
    (h : takeNat width bs = .ok (n, rest)) : n < 256 ^ width ∧ bs = lowBytes width n ++ rest := by
  induction width generalizing n bs with
  | zero =>
    cases h
    exact ⟨Nat.one_pos, rfl⟩
  | succ width ih =>
    cases bs with
    | nil => cases h
    | cons b bs =>
      obtain ⟨⟨m, rest'⟩, hm, hn⟩ := bind_eq_ok h
      cases hn
      obtain ⟨hlt, rfl⟩ := ih hm
      have hb := b.toNat_lt
      have hlow : UInt8.ofNat (b.toNat + 256 * m) = b := by
        rw [← UInt8.toNat_inj, UInt8.toNat_ofNat']
        omega
      refine ⟨?_, ?_⟩
      · rw [Nat.pow_succ]
        omega
      · rw [lowBytes, hlow, show (b.toNat + 256 * m) / 256 = m by omega]
        rfl

namespace Codec

variable {α β : Type} {c : Codec α} {d : Codec β}

/-- Whatever is read has a written form, which stood at the front. -/
def Canonical (c : Codec α) : Prop :=
  ∀ ⦃bs a rest⦄, c.decode bs = .ok (a, rest) → c.fits a = true ∧ bs = c.encode a ++ rest

theorem canonical_word (width : Nat) : (word width).Canonical := by
  intro bs n rest h
  obtain ⟨hlt, hbs⟩ := lowBytes_of_takeNat h
  exact ⟨decide_eq_true hlt, hbs⟩

/-- Values written as others are canonical if what is read of them is written back as them. -/
theorem Canonical.refine (hc : c.Canonical) {read : α → Except Fault β} {write : β → α}
    (h : ∀ a b, c.fits a = true → read a = .ok b → write b = a) :
    (c.refine read write).Canonical := by
  intro bs b rest hread
  obtain ⟨⟨a, rest'⟩, ha, hread⟩ := bind_eq_ok hread
  obtain ⟨b', hb, hread⟩ := bind_eq_ok hread
  cases hread
  obtain ⟨hfits, hbs⟩ := hc ha
  show c.fits (write b) = true ∧ bs = c.encode (write b) ++ rest
  rw [h a b hfits hb]
  exact ⟨hfits, hbs⟩

theorem Canonical.map (hc : c.Canonical) {read : α → β} {write : β → α}
    (h : ∀ a, c.fits a = true → write (read a) = a) : (c.map read write).Canonical :=
  hc.refine fun a b hfits hb => by
    cases hb
    exact h a hfits

theorem Canonical.pair (hc : c.Canonical) (hd : d.Canonical) : (c.pair d).Canonical := by
  rintro bs ⟨a, b⟩ rest hread
  obtain ⟨⟨a', rest'⟩, ha, hread⟩ := bind_eq_ok hread
  obtain ⟨⟨b', rest''⟩, hb, hread⟩ := bind_eq_ok hread
  cases hread
  obtain ⟨hfits, rfl⟩ := hc ha
  obtain ⟨hfits', rfl⟩ := hd hb
  exact ⟨Bool.and_eq_true_iff.2 ⟨hfits, hfits'⟩, (List.append_assoc _ _ _).symm⟩

theorem Canonical.decodeMany (hc : c.Canonical) {n : Nat} {bs rest : List UInt8} {xs : List α}
    (h : c.decodeMany n bs = .ok (xs, rest)) :
    xs.length = n ∧ xs.all c.fits = true ∧ bs = xs.flatMap c.encode ++ rest := by
  induction n generalizing bs xs with
  | zero =>
    cases h
    exact ⟨rfl, rfl, rfl⟩
  | succ n ih =>
    obtain ⟨⟨x, rest'⟩, hx, h⟩ := bind_eq_ok h
    obtain ⟨⟨xs', rest''⟩, hxs, h⟩ := bind_eq_ok h
    cases h
    obtain ⟨hfits, rfl⟩ := hc hx
    obtain ⟨rfl, hall, rfl⟩ := ih hxs
    refine ⟨rfl, Bool.and_eq_true_iff.2 ⟨hfits, hall⟩, ?_⟩
    rw [List.flatMap_cons, List.append_assoc]

theorem Canonical.list (hc : c.Canonical) : c.list.Canonical := by
  intro bs xs rest hread
  obtain ⟨⟨n, rest'⟩, hn, hmany⟩ := bind_eq_ok hread
  obtain ⟨rfl, hall, rfl⟩ := hc.decodeMany hmany
  obtain ⟨hfits, rfl⟩ := canonical_word 4 hn
  exact ⟨Bool.and_eq_true_iff.2 ⟨hfits, hall⟩, (List.append_assoc _ _ _).symm⟩

theorem canonical_byte : byte.Canonical :=
  (canonical_word 1).map fun n hn => by
    have hlt : n < 256 := of_decide_eq_true hn
    rw [UInt8.toNat_ofNat', Nat.mod_eq_of_lt hlt]

theorem canonical_uint32 : uint32.Canonical :=
  (canonical_word 4).map fun _ hn => UInt32.toNat_ofNat_of_lt' (of_decide_eq_true hn)

theorem canonical_uint64 : uint64.Canonical :=
  (canonical_word 8).map fun _ hn => UInt64.toNat_ofNat_of_lt' (of_decide_eq_true hn)

theorem canonical_int64 : int64.Canonical :=
  canonical_uint64.map fun n _ => UInt64.toUInt64_toInt64 n

/-- No other byte than 0 and 1 is a truth value. -/
theorem canonical_bool : bool.Canonical :=
  canonical_byte.refine fun b v _ hv => by
    by_cases h0 : b = 0
    · rw [if_pos h0] at hv
      cases hv
      exact h0.symm
    by_cases h1 : b = 1
    · rw [if_neg h0, if_pos h1] at hv
      cases hv
      exact h1.symm
    · rw [if_neg h0, if_neg h1] at hv
      cases hv

theorem canonical_bytes : bytes.Canonical := canonical_byte.list

theorem canonical_text : text.Canonical :=
  canonical_bytes.refine fun bs s _ hs => by
    cases hread : Utf8.decode bs with
    | error fault =>
      rw [hread] at hs
      cases hs
    | ok s' =>
      rw [hread] at hs
      cases hs
      exact Utf8.decode_eq_ok.1 hread

/-- Bytes are read in full as a value exactly if they are its written form. -/
theorem decodeAll_eq_ok (hc : c.Canonical) (hc' : c.Lawful) {a : α} {bs : List UInt8} :
    c.decodeAll bs = .ok a ↔ c.fits a = true ∧ bs = c.encode a := by
  constructor
  · intro h
    unfold decodeAll at h
    split at h <;> cases h
    rename_i hread
    obtain ⟨hfits, hbs⟩ := hc hread
    exact ⟨hfits, by rw [hbs, List.append_nil]⟩
  · rintro ⟨hfits, rfl⟩
    exact hc'.decodeAll hfits

end Codec

open Codec

theorem canonical_message : message.Canonical :=
  (canonical_text.pair canonical_bytes).map fun _ _ => rfl

theorem canonical_messages : messages.Canonical := canonical_message.list

theorem canonical_coin : coin.Canonical := (canonical_text.pair canonical_text).map fun _ _ => rfl

theorem canonical_fee : fee.Canonical :=
  (canonical_coin.list.pair <| canonical_uint64.pair <| canonical_text.pair canonical_text).map
    fun _ _ => rfl

theorem canonical_tx : tx.Canonical :=
  have hbody : txBody.Canonical := (canonical_messages.pair canonical_text).map fun _ _ => rfl
  have hinfo : authInfo.Canonical := canonical_fee.map fun _ _ => rfl
  (hbody.pair <| hinfo.pair canonical_bytes.list).map fun _ _ => rfl

theorem canonical_eventAttribute : eventAttribute.Canonical :=
  (canonical_text.pair <| canonical_text.pair canonical_bool).map fun _ _ => rfl

theorem canonical_event : event.Canonical :=
  (canonical_text.pair canonical_eventAttribute.list).map fun _ _ => rfl

theorem canonical_execResult : execResult.Canonical :=
  (canonical_uint32.pair <| canonical_bytes.pair <| canonical_text.pair <| canonical_text.pair <|
    canonical_int64.pair <| canonical_int64.pair <| canonical_event.list.pair canonical_text).map
    fun _ _ => rfl

theorem canonical_txResult : txResult.Canonical :=
  (canonical_int64.pair <| canonical_uint32.pair <| canonical_bytes.pair canonical_execResult).map
    fun _ _ => rfl

variable {α : Type} {c : Codec α} {a : α} {bs : List UInt8}

/-- What is read in full is what is written. -/
theorem decodeAs_eq_ok (hc : c.Canonical) (hc' : c.Lawful) (subject : String) :
    decodeAs c subject bs = .ok a ↔ encodeAs c subject a = .ok bs := by
  rw [encodeAs_eq_ok, ← decodeAll_eq_ok hc hc', decodeAs]
  cases c.decodeAll bs with
  | error fault => simp [Except.mapError]
  | ok a => simp [Except.mapError]

/-- A value is written unless one of its lengths is too great. -/
theorem exists_encodeAs_eq_ok {lengths : α → List Nat} (hc : c.Measures lengths)
    (subject : String) :
    (∃ bs, encodeAs c subject a = .ok bs) ↔ ∀ n ∈ lengths a, n < 2 ^ 32 := by
  simp only [encodeAs_eq_ok, exists_and_left, exists_eq, and_true]
  exact hc a

end Wire

namespace Encoding

variable {e : Encoding} {bs : List UInt8} {messages : List Message}

/-- The types of the messages are accepted, all of them. -/
def AcceptsAll (e : Encoding) (messages : List Message) : Prop :=
  ∀ m ∈ messages, e.accepted.contains m.typeUrl = true

theorem firstRefused?_eq_none : e.firstRefused? messages = none ↔ e.AcceptsAll messages := by
  simp [firstRefused?, AcceptsAll]

/-- What was read is given out if none of its messages is refused. -/
theorem checked_eq_ok {α : Type} (refused? : α → Option Message) {x : Except Failure α}
    {failure : Message → Failure} {a : α} :
    (x >>= fun a => match refused? a with
      | some m => .error (failure m)
      | none => .ok a) = .ok a ↔ x = .ok a ∧ refused? a = none := by
  cases x with
  | error fault => exact ⟨fun h => (nomatch h), fun h => (nomatch h.1)⟩
  | ok b =>
    show (match refused? b with
      | some m => .error (failure m)
      | none => .ok b) = Except.ok a ↔ _
    cases hb : refused? b with
    | none =>
      rw [Except.ok.injEq]
      exact ⟨fun h => ⟨h, h ▸ hb⟩, And.left⟩
    | some m =>
      refine ⟨fun h => (nomatch h), fun ⟨h, hnone⟩ => ?_⟩
      rw [← Except.ok.inj h, hb] at hnone
      cases hnone

/-- A transaction is read exactly from what is written for it, if its message types are accepted. -/
theorem decodeTx_eq_ok {tx : Tx} :
    e.decodeTx bs = .ok tx ↔ encodeTx tx = .ok bs ∧ e.AcceptsAll tx.body.messages := by
  rw [encodeTx, ← Wire.decodeAs_eq_ok Wire.canonical_tx Wire.lawful_tx, ← firstRefused?_eq_none]
  exact checked_eq_ok fun tx : Tx => e.firstRefused? tx.body.messages

theorem encodeMessages_eq_ok : e.encodeMessages messages = .ok bs ↔
    Wire.encodeAs Wire.messages "messages" messages = .ok bs ∧ e.AcceptsAll messages := by
  rw [← firstRefused?_eq_none]
  unfold encodeMessages
  cases e.firstRefused? messages <;> simp

/-- Messages are read exactly from what is written for them. -/
theorem decodeMessages_eq_ok :
    e.decodeMessages bs = .ok messages ↔ e.encodeMessages messages = .ok bs := by
  rw [encodeMessages_eq_ok, ← Wire.decodeAs_eq_ok Wire.canonical_messages Wire.lawful_messages,
    ← firstRefused?_eq_none]
  exact checked_eq_ok e.firstRefused?

/-- A result is read exactly from what is written for it. -/
theorem decodeResult_eq_ok {r : TxResult} : decodeResult bs = .ok r ↔ encodeResult r = .ok bs :=
  Wire.decodeAs_eq_ok Wire.canonical_txResult Wire.lawful_txResult _

/-- Reading and writing are inverse to each other, and every value has one written form at most. -/
structure Exact (e : Encoding) : Prop where
  /-- A transaction is read from the bytes as which it is written, if its types are accepted, and
  from no others. -/
  readsTx : ∀ bs tx, e.decodeTx bs = .ok tx ↔ encodeTx tx = .ok bs ∧ e.AcceptsAll tx.body.messages
  /-- Messages are read from the bytes as which they are written, and from no others. -/
  readsMessages : ∀ bs messages,
    e.decodeMessages bs = .ok messages ↔ e.encodeMessages messages = .ok bs
  /-- A result is read from the bytes as which it is written, and from no others. -/
  readsResult : ∀ bs r, decodeResult bs = .ok r ↔ encodeResult r = .ok bs
  /-- Only its lengths can keep a transaction from being written. -/
  writesTx : ∀ tx, (∃ bs, encodeTx tx = .ok bs) ↔ ∀ n ∈ tx.lengths, n < 2 ^ 32
  /-- Only their types and lengths can keep messages from being written. -/
  writesMessages : ∀ messages, (∃ bs, e.encodeMessages messages = .ok bs) ↔
    e.AcceptsAll messages ∧ ∀ n ∈ Message.lengthsOf messages, n < 2 ^ 32
  /-- Only its lengths can keep a result from being written. -/
  writesResult : ∀ r, (∃ bs, encodeResult r = .ok bs) ↔ ∀ n ∈ r.lengths, n < 2 ^ 32
  /-- A transaction that was read has, written again, the hash that it had. -/
  keepsHash : ∀ bs tx, e.decodeTx bs = .ok tx → (encodeTx tx).map txHash = .ok (txHash bs)
  /-- No two byte strings are read as one transaction. -/
  tx_inj : ∀ bs bs' tx, e.decodeTx bs = .ok tx → e.decodeTx bs' = .ok tx → bs = bs'
  /-- No two byte strings are read as the same messages. -/
  messages_inj : ∀ bs bs' messages,
    e.decodeMessages bs = .ok messages → e.decodeMessages bs' = .ok messages → bs = bs'
  /-- No two byte strings are read as one result. -/
  result_inj : ∀ bs bs' r, decodeResult bs = .ok r → decodeResult bs' = .ok r → bs = bs'

theorem exists_encodeMessages_eq_ok : (∃ bs, e.encodeMessages messages = .ok bs) ↔
    e.AcceptsAll messages ∧ ∀ n ∈ Message.lengthsOf messages, n < 2 ^ 32 := by
  rw [← Wire.exists_encodeAs_eq_ok Wire.measures_messages "messages"]
  simp only [encodeMessages_eq_ok]
  exact ⟨fun ⟨bs, hbs, ha⟩ => ⟨ha, bs, hbs⟩, fun ⟨ha, bs, hbs⟩ => ⟨bs, hbs, ha⟩⟩

/-- A transaction that was read has messages that can be written. -/
theorem exists_encodeMessages_of_decodeTx {tx : Tx} (h : e.decodeTx bs = .ok tx) :
    ∃ bs, e.encodeMessages tx.body.messages = .ok bs := by
  obtain ⟨hwritten, haccepted⟩ := decodeTx_eq_ok.1 h
  have hlengths : ∀ n ∈ tx.lengths, n < 2 ^ 32 :=
    (Wire.exists_encodeAs_eq_ok Wire.measures_tx "tx").1 ⟨bs, hwritten⟩
  refine exists_encodeMessages_eq_ok.2 ⟨haccepted, fun n hn => hlengths n ?_⟩
  simp [Tx.lengths, hn]

/-- What is written as two byte strings is written as one. -/
theorem eq_of_written {x : Except Failure (List UInt8)} {bs bs' : List UInt8} (h : x = .ok bs)
    (h' : x = .ok bs') : bs = bs' :=
  Except.ok.inj (h.symm.trans h')

/-- **The binary forms are exact.** Whatever message types are accepted, a value is read from the
bytes as which it is written, and from no others. That a written value is read back is lawfulness,
that nothing else is read is canonicity, and what can be written is told by the lengths of its
lists. -/
theorem codecs_exact (e : Encoding) : e.Exact where
  readsTx _ _ := decodeTx_eq_ok
  readsMessages _ _ := decodeMessages_eq_ok
  readsResult _ _ := decodeResult_eq_ok
  writesTx _ := Wire.exists_encodeAs_eq_ok Wire.measures_tx _
  writesMessages _ := exists_encodeMessages_eq_ok
  writesResult _ := Wire.exists_encodeAs_eq_ok Wire.measures_txResult _
  keepsHash bs tx h := by
    rw [(decodeTx_eq_ok.1 h).1]
    rfl
  tx_inj _ _ _ h h' := eq_of_written (decodeTx_eq_ok.1 h).1 (decodeTx_eq_ok.1 h').1
  messages_inj _ _ _ h h' :=
    eq_of_written (decodeMessages_eq_ok.1 h) (decodeMessages_eq_ok.1 h')
  result_inj _ _ _ h h' := eq_of_written (decodeResult_eq_ok.1 h) (decodeResult_eq_ok.1 h')

end Encoding
end TxIndex
