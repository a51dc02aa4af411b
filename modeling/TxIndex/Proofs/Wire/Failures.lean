import TxIndex.Encoding

/-! # How reading and writing fail

Whatever the index reads or writes fails with the name of its subject. Reading gives a failure to
decode and writing a failure to encode, so neither is taken for a block that is missing.

Each reader and each writer of the encoding has its lemma here, and callers tell failures apart by
these alone, without looking into the codecs. -/
namespace TxIndex

namespace Wire

variable {α : Type} {c : Codec α} {subject : String} {failure : Failure}

theorem decodeAs_eq_error {bs : List UInt8} (h : decodeAs c subject bs = .error failure) :
    ∃ reason, failure = .decode subject reason := by
  unfold decodeAs at h
  cases hread : c.decodeAll bs with
  | error fault =>
    rw [hread] at h
    exact ⟨_, (Except.error.inj h).symm⟩
  | ok a =>
    rw [hread] at h
    cases h

theorem encodeAs_eq_error {a : α} (h : encodeAs c subject a = .error failure) :
    ∃ reason, failure = .encode subject reason := by
  unfold encodeAs at h
  split at h
  · cases h
  · exact ⟨_, (Except.error.inj h).symm⟩

end Wire

namespace Encoding

variable {e : Encoding} {bs : List UInt8} {failure : Failure}

/-- What is looked at after reading fails as the reading did, or for a message that is refused. -/
theorem checked_eq_error {α : Type} (refused? : α → Option Message) {x : Except Failure α}
    {refuse : Message → Failure}
    (h : (x >>= fun a => match refused? a with
      | some m => .error (refuse m)
      | none => .ok a) = .error failure) :
    x = .error failure ∨ ∃ m, failure = refuse m := by
  cases x with
  | error fault => exact .inl h
  | ok a =>
    simp only [bind, Except.bind] at h
    split at h
    · exact .inr ⟨_, (Except.error.inj h).symm⟩
    · cases h

theorem decodeTx_eq_error (h : e.decodeTx bs = .error failure) :
    ∃ reason, failure = .decode "tx" reason := by
  rcases checked_eq_error (fun tx : Tx => e.firstRefused? tx.body.messages) h with h | ⟨m, rfl⟩
  · exact Wire.decodeAs_eq_error h
  · exact ⟨_, rfl⟩

theorem decodeMessages_eq_error (h : e.decodeMessages bs = .error failure) :
    ∃ reason, failure = .decode "messages" reason := by
  rcases checked_eq_error e.firstRefused? h with h | ⟨m, rfl⟩
  · exact Wire.decodeAs_eq_error h
  · exact ⟨_, rfl⟩

theorem decodeFee_eq_error {s : String} {complaint : String → String}
    (h : decodeFee s complaint = .error failure) : ∃ reason, failure = .decode "fee" reason := by
  unfold decodeFee at h
  split at h
  · cases h
  · exact ⟨_, (Except.error.inj h).symm⟩

theorem decodeResult_eq_error (h : decodeResult bs = .error failure) :
    ∃ reason, failure = .decode "tx result" reason :=
  Wire.decodeAs_eq_error h

theorem encodeMessages_eq_error {messages : List Message}
    (h : e.encodeMessages messages = .error failure) :
    ∃ reason, failure = .encode "messages" reason := by
  unfold encodeMessages at h
  split at h
  · exact ⟨_, (Except.error.inj h).symm⟩
  · exact Wire.encodeAs_eq_error h

theorem encodeResult_eq_error {r : TxResult} (h : encodeResult r = .error failure) :
    ∃ reason, failure = .encode "tx result" reason :=
  Wire.encodeAs_eq_error h

end Encoding
end TxIndex
