import TxIndex.Proofs.Wire.RoundTrip

/-! # What can be written

Counts have four bytes, so a value can be written exactly if none of its lists and texts is longer
than such a count can say. The lengths of a value are listed here without its codec, and each codec
is shown to ask for nothing else (`Wire.Codec.Measures`). -/
namespace TxIndex

/-! ## Lengths -/

/-- The lengths of the parts of a message. -/
def Message.lengths (m : Message) : List Nat := [m.typeUrl.utf8ByteSize, m.value.length]

/-- The lengths of messages: their number, and those of each. -/
def Message.lengthsOf (messages : List Message) : List Nat :=
  messages.length :: messages.flatMap Message.lengths

/-- The lengths of the parts of an amount. -/
def Coin.lengths (c : Coin) : List Nat := [c.denom.utf8ByteSize, c.amount.utf8ByteSize]

/-- The lengths of the parts of a fee. -/
def Fee.lengths (f : Fee) : List Nat :=
  f.amount.length :: f.amount.flatMap Coin.lengths ++ [f.payer.utf8ByteSize, f.granter.utf8ByteSize]

/-- The lengths of all lists and texts in a transaction. -/
def Tx.lengths (t : Tx) : List Nat :=
  Message.lengthsOf t.body.messages ++ t.body.memo.utf8ByteSize :: t.authInfo.fee.lengths ++
    t.signatures.length :: t.signatures.map List.length

/-- The lengths of the parts of an attribute. -/
def EventAttribute.lengths (a : EventAttribute) : List Nat :=
  [a.key.utf8ByteSize, a.value.utf8ByteSize]

/-- The lengths of the parts of an event. -/
def Event.lengths (e : Event) : List Nat :=
  e.kind.utf8ByteSize :: e.attributes.length :: e.attributes.flatMap EventAttribute.lengths

/-- The lengths of all lists and texts in a result. -/
def TxResult.lengths (r : TxResult) : List Nat :=
  [r.tx.length, r.result.data.length, r.result.log.utf8ByteSize, r.result.info.utf8ByteSize] ++
    r.result.events.length :: r.result.events.flatMap Event.lengths ++
    [r.result.codespace.utf8ByteSize]

namespace Wire
namespace Codec

variable {α β : Type} {c : Codec α} {d : Codec β} {l : α → List Nat} {k : β → List Nat}

/-- A value has a written form exactly if its lengths fit into four bytes. -/
def Measures (c : Codec α) (lengths : α → List Nat) : Prop :=
  ∀ a, c.fits a = true ↔ ∀ n ∈ lengths a, n < 2 ^ 32

theorem Measures.congr (hc : c.Measures l) {l' : α → List Nat} (h : ∀ a, l a = l' a) :
    c.Measures l' := fun a => h a ▸ hc a

theorem Measures.refine (hc : c.Measures l) (read : α → Except Fault β) (write : β → α) :
    (c.refine read write).Measures fun b => l (write b) := fun b => hc (write b)

theorem Measures.map (hc : c.Measures l) (read : α → β) (write : β → α) :
    (c.map read write).Measures fun b => l (write b) := hc.refine (.ok ∘ read) write

theorem Measures.pair (hc : c.Measures l) (hd : d.Measures k) :
    (c.pair d).Measures fun p => l p.1 ++ k p.2 := by
  intro p
  rw [List.forall_mem_append, ← hc, ← hd]
  exact Bool.and_eq_true_iff

theorem fits_count {n : Nat} : (word 4).fits n = true ↔ n < 2 ^ 32 := by
  simp [word]

theorem Measures.list (hc : c.Measures l) :
    c.list.Measures fun xs => xs.length :: xs.flatMap l := by
  intro xs
  have hall : xs.all c.fits = true ↔ ∀ n ∈ xs.flatMap l, n < 2 ^ 32 := by
    rw [List.all_eq_true]
    simp only [List.mem_flatMap]
    constructor
    · rintro h n ⟨x, hx, hn⟩
      exact (hc x).1 (h x hx) n hn
    · intro h x hx
      exact (hc x).2 fun n hn => h n ⟨x, hx, hn⟩
  rw [List.forall_mem_cons, ← hall, ← fits_count]
  exact Bool.and_eq_true_iff

/-- A codec that writes all values asks for no length. -/
theorem measures_nil (h : ∀ a, c.fits a = true) : c.Measures fun _ => [] :=
  fun a => ⟨fun _ _ hn => (nomatch hn), fun _ => h a⟩

theorem measures_byte : byte.Measures fun _ => [] :=
  measures_nil fun b => decide_eq_true b.toNat_lt

theorem measures_uint32 : uint32.Measures fun _ => [] :=
  measures_nil fun n => decide_eq_true n.toNat_lt

theorem measures_uint64 : uint64.Measures fun _ => [] :=
  measures_nil fun n => decide_eq_true n.toNat_lt

theorem measures_int64 : int64.Measures fun _ => [] :=
  measures_nil fun n => decide_eq_true n.toUInt64.toNat_lt

theorem measures_bool : bool.Measures fun _ => [] :=
  measures_nil fun b => by cases b <;> rfl

theorem measures_bytes : bytes.Measures fun bs => [bs.length] :=
  measures_byte.list.congr fun bs => by simp

theorem measures_text : text.Measures fun s => [s.utf8ByteSize] :=
  (measures_bytes.refine _ _).congr fun s => by rw [Utf8.length_encode]

end Codec

open Codec

theorem measures_message : message.Measures Message.lengths :=
  (measures_text.pair measures_bytes).map _ _

theorem measures_messages : messages.Measures Message.lengthsOf := measures_message.list

theorem measures_coin : coin.Measures Coin.lengths :=
  (measures_text.pair measures_text).map _ _

theorem measures_fee : fee.Measures Fee.lengths :=
  (measures_coin.list.pair <| measures_uint64.pair <| measures_text.pair measures_text).map _ _

theorem measures_tx : tx.Measures Tx.lengths :=
  ((((measures_messages.pair measures_text).map _ _).pair <|
    (measures_fee.map _ _).pair measures_bytes.list).map _ _).congr fun t => by
      simp [Tx.lengths, List.map_eq_flatMap]

theorem measures_eventAttribute : eventAttribute.Measures EventAttribute.lengths :=
  (measures_text.pair <| measures_text.pair measures_bool).map _ _

theorem measures_event : event.Measures Event.lengths :=
  (measures_text.pair measures_eventAttribute.list).map _ _

theorem measures_txResult : txResult.Measures TxResult.lengths :=
  ((measures_int64.pair <| measures_uint32.pair <| measures_bytes.pair <| Measures.map
    (measures_uint32.pair <| measures_bytes.pair <| measures_text.pair <| measures_text.pair <|
      measures_int64.pair <| measures_int64.pair <| measures_event.list.pair measures_text)
    _ _).map _ _).congr fun r => by
      simp [TxResult.lengths]

end Wire
end TxIndex
