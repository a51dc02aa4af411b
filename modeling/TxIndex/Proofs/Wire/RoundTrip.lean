import Mathlib.Algebra.Ring.Nat
import TxIndex.Encoding
import TxIndex.Proofs.Text.Bytes

/-! # Reading what was written

A codec is lawful if it reads a written value back from the front of any bytes and hands on the rest
unread. Words are lawful, and so is whatever is put together from lawful codecs, down to the results
and messages that the index stores. What is stored can therefore be read
(`Encoding.decodeResult_of_encode`, `Encoding.decodeMessages_of_encode`), and no two results are
stored alike (`Wire.encode_txResult_inj`).

There is one lemma for each maker of codecs, and a type is lawful by the way it is put together. A
refinement must not refuse what it was written from, and a list must be short enough for its count,
which is what `Wire.Codec.fits` asks. -/
namespace TxIndex
namespace Wire

theorem takeNat_lowBytes (width n : Nat) (rest : List UInt8) :
    takeNat width (lowBytes width n ++ rest) = .ok (n % 256 ^ width, rest) := by
  induction width generalizing n with
  | zero => simp [takeNat, lowBytes, Nat.mod_one]
  | succ width ih =>
    have hsplit : n % 256 + 256 * (n / 256 % 256 ^ width) = n % 256 ^ (width + 1) := by
      rw [Nat.pow_succ, Nat.mul_comm (256 ^ width), Nat.mod_mul]
    rw [lowBytes, List.cons_append, takeNat, ih, ← hsplit]
    rfl

namespace Codec

variable {α β : Type} {c : Codec α} {d : Codec β}

/-- A written value is read back, whatever follows it. -/
def Lawful (c : Codec α) : Prop :=
  ∀ a, c.fits a = true → ∀ rest, c.decode (c.encode a ++ rest) = .ok (a, rest)

theorem lawful_word (width : Nat) : (word width).Lawful := by
  intro n hn rest
  have hlt : n < 256 ^ width := by simpa [word] using hn
  show takeNat width (lowBytes width n ++ rest) = .ok (n, rest)
  rw [takeNat_lowBytes, Nat.mod_eq_of_lt hlt]

/-- Values written as others are read back if reading undoes writing where it is written. -/
theorem Lawful.refine (hc : c.Lawful) {read : α → Except Fault β} {write : β → α}
    (h : ∀ b, c.fits (write b) = true → read (write b) = .ok b) :
    (c.refine read write).Lawful := by
  intro b hb rest
  have hdecode := hc (write b) hb rest
  show (c.decode (c.encode (write b) ++ rest) >>= fun p => do return (← read p.1, p.2)) = _
  rw [hdecode]
  show (read (write b) >>= fun b => pure (b, rest)) = _
  rw [h b hb]
  rfl

theorem Lawful.map (hc : c.Lawful) {read : α → β} {write : β → α}
    (h : ∀ b, c.fits (write b) = true → read (write b) = b) : (c.map read write).Lawful :=
  hc.refine fun b hb => congrArg Except.ok (h b hb)

theorem Lawful.pair (hc : c.Lawful) (hd : d.Lawful) : (c.pair d).Lawful := by
  rintro ⟨a, b⟩ hfits rest
  obtain ⟨ha, hb⟩ := Bool.and_eq_true_iff.1 hfits
  have hfirst := hc a ha (d.encode b ++ rest)
  have hsecond := hd b hb rest
  show (c.decode (c.encode a ++ d.encode b ++ rest) >>= fun p =>
    d.decode p.2 >>= fun q => pure ((p.1, q.1), q.2)) = _
  rw [List.append_assoc, hfirst]
  show (d.decode (d.encode b ++ rest) >>= fun q => pure ((a, q.1), q.2)) = _
  rw [hsecond]
  rfl

theorem Lawful.decodeMany (hc : c.Lawful) {xs : List α} (h : ∀ x ∈ xs, c.fits x = true)
    (rest : List UInt8) :
    c.decodeMany xs.length (xs.flatMap c.encode ++ rest) = .ok (xs, rest) := by
  induction xs with
  | nil => rfl
  | cons x xs ih =>
    have hx := hc x (h x List.mem_cons_self) (xs.flatMap c.encode ++ rest)
    have hxs := ih fun y hy => h y (List.mem_cons_of_mem _ hy)
    rw [List.flatMap_cons, List.append_assoc, List.length_cons, Codec.decodeMany, hx]
    show (c.decodeMany xs.length (xs.flatMap c.encode ++ rest) >>=
      fun p => pure (x :: p.1, p.2)) = _
    rw [hxs]
    rfl

theorem Lawful.list (hc : c.Lawful) : c.list.Lawful := by
  intro xs hfits rest
  obtain ⟨hlen, hall⟩ := Bool.and_eq_true_iff.1 hfits
  have hcount := lawful_word 4 xs.length hlen (xs.flatMap c.encode ++ rest)
  show ((word 4).decode ((word 4).encode xs.length ++ xs.flatMap c.encode ++ rest) >>=
    fun p => c.decodeMany p.1 p.2) = _
  rw [List.append_assoc, hcount]
  exact hc.decodeMany (List.all_eq_true.1 hall) rest

theorem lawful_byte : byte.Lawful := (lawful_word 1).map fun _ _ => UInt8.ofNat_toNat

theorem lawful_uint32 : uint32.Lawful := (lawful_word 4).map fun _ _ => UInt32.ofNat_toNat

theorem lawful_uint64 : uint64.Lawful := (lawful_word 8).map fun _ _ => UInt64.ofNat_toNat

theorem lawful_int64 : int64.Lawful := lawful_uint64.map fun n _ => Int64.toInt64_toUInt64 n

theorem lawful_bool : bool.Lawful := lawful_byte.refine fun b _ => by cases b <;> rfl

theorem lawful_bytes : bytes.Lawful := lawful_byte.list

theorem lawful_text : text.Lawful :=
  lawful_bytes.refine fun s _ => by rw [Utf8.decode_encode]; rfl

/-- Bytes that hold a written value and nothing else are read in full. -/
theorem Lawful.decodeAll (hc : c.Lawful) {a : α} (ha : c.fits a = true) :
    c.decodeAll (c.encode a) = .ok a := by
  have h := hc a ha []
  rw [List.append_nil] at h
  rw [Codec.decodeAll, h]

theorem Lawful.encode_inj (hc : c.Lawful) {a b : α} (ha : c.fits a = true) (hb : c.fits b = true)
    (h : c.encode a = c.encode b) : a = b := by
  have h' := hc.decodeAll ha
  rw [h, hc.decodeAll hb] at h'
  exact (Except.ok.inj h').symm

end Codec

open Codec

theorem lawful_message : message.Lawful := (lawful_text.pair lawful_bytes).map fun _ _ => rfl

theorem lawful_messages : messages.Lawful := lawful_message.list

theorem lawful_coin : coin.Lawful := (lawful_text.pair lawful_text).map fun _ _ => rfl

theorem lawful_fee : fee.Lawful :=
  (lawful_coin.list.pair <| lawful_uint64.pair <| lawful_text.pair lawful_text).map fun _ _ => rfl

theorem lawful_tx : tx.Lawful :=
  have hbody : txBody.Lawful := (lawful_messages.pair lawful_text).map fun _ _ => rfl
  have hinfo : authInfo.Lawful := lawful_fee.map fun _ _ => rfl
  (hbody.pair <| hinfo.pair lawful_bytes.list).map fun _ _ => rfl

theorem lawful_eventAttribute : eventAttribute.Lawful :=
  (lawful_text.pair (lawful_text.pair lawful_bool)).map fun _ _ => rfl

theorem lawful_event : event.Lawful :=
  (lawful_text.pair lawful_eventAttribute.list).map fun _ _ => rfl

theorem lawful_execResult : execResult.Lawful :=
  (lawful_uint32.pair <| lawful_bytes.pair <| lawful_text.pair <| lawful_text.pair <|
    lawful_int64.pair <| lawful_int64.pair <| lawful_event.list.pair lawful_text).map
    fun _ _ => rfl

theorem lawful_txResult : txResult.Lawful :=
  (lawful_int64.pair <| lawful_uint32.pair <| lawful_bytes.pair lawful_execResult).map
    fun _ _ => rfl

/-- No two results are written alike. -/
theorem encode_txResult_inj {r r' : TxResult} (hr : txResult.fits r = true)
    (hr' : txResult.fits r' = true) (h : txResult.encode r = txResult.encode r') : r = r' :=
  lawful_txResult.encode_inj hr hr' h

variable {α : Type} {c : Codec α} {subject : String} {a : α} {bs : List UInt8}

/-- What can be written is what has a written form. -/
theorem encodeAs_eq_ok : encodeAs c subject a = .ok bs ↔ c.fits a = true ∧ bs = c.encode a := by
  unfold encodeAs
  split
  · rename_i h
    exact ⟨fun hok => ⟨h, (Except.ok.inj hok).symm⟩, fun hok => congrArg Except.ok hok.2.symm⟩
  · rename_i h
    exact ⟨fun hok => (nomatch hok), fun hok => absurd hok.1 h⟩

/-- What was written is read back. -/
theorem decodeAs_of_encodeAs (hc : c.Lawful) (h : encodeAs c subject a = .ok bs)
    (subject' : String) : decodeAs c subject' bs = .ok a := by
  obtain ⟨hfits, rfl⟩ := encodeAs_eq_ok.1 h
  rw [decodeAs, hc.decodeAll hfits]
  rfl

end Wire

namespace Encoding

theorem encodeResult_eq_ok {r : TxResult} {blob : List UInt8} :
    encodeResult r = .ok blob ↔ Wire.txResult.fits r = true ∧ blob = Wire.txResult.encode r :=
  Wire.encodeAs_eq_ok

/-- **A stored result is read back.** -/
theorem decodeResult_of_encode {r : TxResult} {blob : List UInt8} (h : encodeResult r = .ok blob) :
    decodeResult blob = .ok r :=
  Wire.decodeAs_of_encodeAs Wire.lawful_txResult h _

/-- **Stored messages are read back**, their types being accepted as before. -/
theorem decodeMessages_of_encode {e : Encoding} {messages : List Message} {bs : List UInt8}
    (h : e.encodeMessages messages = .ok bs) : e.decodeMessages bs = .ok messages := by
  unfold encodeMessages at h
  split at h
  · cases h
  · rename_i haccepted
    have hread := Wire.decodeAs_of_encodeAs Wire.lawful_messages h "messages"
    rw [decodeMessages, hread]
    simp only [bind, Except.bind, haccepted]
    rfl

end Encoding
end TxIndex
