import TxIndex.Proofs.Wire.Canonical

/-! # Damaged bytes

A written value whose last bytes are lost cannot be read: the reader runs out of bytes, and it does
so before it has anything to complain about in those that are there (`Wire.Codec.DetectsLoss`).
Where bytes are added, it reads the value and finds the others. So damage at the end is always
noticed, under the name of what was damaged (`Encoding.damage_noticed`), and no written form is the
beginning of another.

It is again shown maker by maker. A pair whose front is read in full has lost something of its back,
and one whose front is not has lost something there (`Wire.Codec.loss_cases`); a counted list is a
pair of a count and of so many items. The tests of types and of texts do not come in between: they
are made of parts that have been read in full, and these are as they were written. -/
namespace TxIndex
namespace Wire

/-! ## Lost bytes -/

theorem length_lowBytes (width n : Nat) : (lowBytes width n).length = width := by
  induction width generalizing n with
  | zero => rfl
  | succ width ih => rw [lowBytes, List.length_cons, ih]

theorem takeNat_of_length_lt {width : Nat} {bs : List UInt8} (h : bs.length < width) :
    takeNat width bs = .error .endOfInput := by
  induction width generalizing bs with
  | zero => exact absurd h (Nat.not_lt_zero _)
  | succ width ih =>
    cases bs with
    | nil => rfl
    | cons b bs =>
      rw [takeNat, ih (Nat.lt_of_succ_lt_succ h)]
      rfl

namespace Codec

variable {α β : Type} {c : Codec α} {d : Codec β}

/-- Whatever is lost at the end of a written value, the reader misses bytes. -/
def DetectsLoss (c : Codec α) : Prop :=
  ∀ ⦃a front lost⦄, c.fits a = true → front ++ lost = c.encode a → lost ≠ [] →
    c.decode front = .error .endOfInput

theorem detectsLoss_word (width : Nat) : (word width).DetectsLoss := by
  intro n front lost _ happend hlost
  have hlen := congrArg List.length happend
  have hpos := List.length_pos_iff.2 hlost
  rw [List.length_append, show (word width).encode n = lowBytes width n from rfl,
    length_lowBytes] at hlen
  exact takeNat_of_length_lt (by omega)

/-- What would refuse a value looks at it after its bytes have been read. -/
theorem DetectsLoss.refine (hc : c.DetectsLoss) (read : α → Except Fault β) (write : β → α) :
    (c.refine read write).DetectsLoss := by
  intro b front lost hfits happend hlost
  have hread := hc hfits happend hlost
  show (c.decode front >>= fun p => do return (← read p.1, p.2)) = _
  rw [hread]
  rfl

theorem DetectsLoss.map (hc : c.DetectsLoss) (read : α → β) (write : β → α) :
    (c.map read write).DetectsLoss :=
  hc.refine (.ok ∘ read) write

/-- Bytes of two parts are lost from the second part only, or from the first and the second is
missing. -/
theorem loss_cases {front lost as bs : List UInt8} (h : front ++ lost = as ++ bs) :
    (∃ lost', lost' ≠ [] ∧ front ++ lost' = as) ∨
      ∃ front', front = as ++ front' ∧ front' ++ lost = bs := by
  rcases List.append_eq_append_iff.1 h with ⟨lost', has, hlost'⟩ | ⟨front', hfront, hbs⟩
  · by_cases hnil : lost' = []
    · subst hnil
      exact .inr ⟨[], by rw [has, List.append_nil, List.append_nil], hlost'⟩
    · exact .inl ⟨lost', hnil, has.symm⟩
  · exact .inr ⟨front', hfront, hbs.symm⟩

theorem DetectsLoss.pair (hc : c.DetectsLoss) (hc' : c.Lawful) (hd : d.DetectsLoss) :
    (c.pair d).DetectsLoss := by
  rintro ⟨a, b⟩ front lost hfits happend hlost
  obtain ⟨ha, hb⟩ := Bool.and_eq_true_iff.1 hfits
  show (c.decode front >>= fun p => d.decode p.2 >>= fun q => pure ((p.1, q.1), q.2)) = _
  rcases loss_cases happend with ⟨lost', hlost', hfirst⟩ | ⟨front', rfl, hsecond⟩
  · rw [hc ha hfirst hlost']
    rfl
  · rw [hc' a ha front']
    show (d.decode front' >>= fun q => pure ((a, q.1), q.2)) = _
    rw [hd hb hsecond hlost]
    rfl

/-- The items before the first that is damaged are read, and it is the damaged one that fails. -/
theorem DetectsLoss.decodeMany (hc : c.DetectsLoss) (hc' : c.Lawful) {xs : List α}
    {front lost : List UInt8} (h : ∀ x ∈ xs, c.fits x = true)
    (happend : front ++ lost = xs.flatMap c.encode) (hlost : lost ≠ []) :
    c.decodeMany xs.length front = .error .endOfInput := by
  induction xs generalizing front with
  | nil => exact absurd (List.append_eq_nil_iff.1 happend).2 hlost
  | cons x xs ih =>
    have hx := h x List.mem_cons_self
    rw [List.flatMap_cons] at happend
    rw [List.length_cons, Codec.decodeMany]
    rcases loss_cases happend with ⟨lost', hlost', hfirst⟩ | ⟨front', rfl, hothers⟩
    · rw [hc hx hfirst hlost']
      rfl
    · have hread := ih (fun y hy => h y (List.mem_cons_of_mem _ hy)) hothers
      rw [hc' x hx front']
      show (c.decodeMany xs.length front' >>= fun p => pure (x :: p.1, p.2)) = _
      rw [hread]
      rfl

theorem DetectsLoss.list (hc : c.DetectsLoss) (hc' : c.Lawful) : c.list.DetectsLoss := by
  intro xs front lost hfits happend hlost
  obtain ⟨hlen, hall⟩ := Bool.and_eq_true_iff.1 hfits
  show ((word 4).decode front >>= fun p => c.decodeMany p.1 p.2) = _
  rcases loss_cases happend with ⟨lost', hlost', hcount⟩ | ⟨front', rfl, hitems⟩
  · rw [detectsLoss_word 4 hlen hcount hlost']
    rfl
  · rw [lawful_word 4 xs.length hlen front']
    exact hc.decodeMany hc' (List.all_eq_true.1 hall) hitems hlost

theorem detectsLoss_byte : byte.DetectsLoss := (detectsLoss_word 1).map _ _

theorem detectsLoss_uint32 : uint32.DetectsLoss := (detectsLoss_word 4).map _ _

theorem detectsLoss_uint64 : uint64.DetectsLoss := (detectsLoss_word 8).map _ _

theorem detectsLoss_int64 : int64.DetectsLoss := detectsLoss_uint64.map _ _

theorem detectsLoss_bool : bool.DetectsLoss := detectsLoss_byte.refine _ _

theorem detectsLoss_bytes : bytes.DetectsLoss := detectsLoss_byte.list lawful_byte

/-- A text that ends inside a character is cut off like any other: its bytes are counted before
they are read as characters. -/
theorem detectsLoss_text : text.DetectsLoss := detectsLoss_bytes.refine _ _

/-- A written value from which bytes are lost is not read. -/
theorem DetectsLoss.decodeAll (hc : c.DetectsLoss) {a : α} {front : List UInt8}
    (ha : c.fits a = true) (hfront : front <+: c.encode a) (hne : front ≠ c.encode a) :
    c.decodeAll front = .error .endOfInput := by
  obtain ⟨lost, happend⟩ := hfront
  have hlost : lost ≠ [] := by
    rintro rfl
    exact hne (by rw [← happend, List.append_nil])
  rw [Codec.decodeAll, hc ha happend hlost]

/-- A written value with bytes behind it is read, and the bytes are noticed. -/
theorem Lawful.decodeAll_append (hc : c.Lawful) {a : α} {added : List UInt8}
    (ha : c.fits a = true) (hadded : added ≠ []) :
    c.decodeAll (c.encode a ++ added) = .error .trailingBytes := by
  obtain ⟨b, bs, rfl⟩ := List.exists_cons_of_ne_nil hadded
  rw [Codec.decodeAll, hc a ha]

/-- No written form is the beginning of another. -/
theorem DetectsLoss.encode_eq (hc : c.DetectsLoss) (hc' : c.Lawful) {a b : α}
    (ha : c.fits a = true) (hb : c.fits b = true) (h : c.encode a <+: c.encode b) :
    c.encode a = c.encode b := by
  by_contra hne
  have hlost := hc.decodeAll hb h hne
  rw [hc'.decodeAll ha] at hlost
  cases hlost

end Codec

open Codec

/-! ## Chain data -/

theorem detectsLoss_message : message.DetectsLoss :=
  (detectsLoss_text.pair lawful_text detectsLoss_bytes).map _ _

theorem detectsLoss_messages : messages.DetectsLoss := detectsLoss_message.list lawful_message

theorem detectsLoss_coin : coin.DetectsLoss :=
  (detectsLoss_text.pair lawful_text detectsLoss_text).map _ _

theorem detectsLoss_fee : fee.DetectsLoss :=
  ((detectsLoss_coin.list lawful_coin).pair lawful_coin.list <|
    detectsLoss_uint64.pair lawful_uint64 <|
    detectsLoss_text.pair lawful_text detectsLoss_text).map _ _

theorem detectsLoss_tx : tx.DetectsLoss :=
  have hbody : txBody.DetectsLoss :=
    (detectsLoss_messages.pair lawful_messages detectsLoss_text).map _ _
  have hinfo : authInfo.DetectsLoss := detectsLoss_fee.map _ _
  have hbody' : txBody.Lawful := (lawful_messages.pair lawful_text).map fun _ _ => rfl
  have hinfo' : authInfo.Lawful := lawful_fee.map fun _ _ => rfl
  (hbody.pair hbody' <| hinfo.pair hinfo' <| detectsLoss_bytes.list lawful_bytes).map _ _

theorem detectsLoss_eventAttribute : eventAttribute.DetectsLoss :=
  (detectsLoss_text.pair lawful_text <| detectsLoss_text.pair lawful_text detectsLoss_bool).map _ _

theorem detectsLoss_event : event.DetectsLoss :=
  (detectsLoss_text.pair lawful_text <|
    detectsLoss_eventAttribute.list lawful_eventAttribute).map _ _

theorem detectsLoss_execResult : execResult.DetectsLoss :=
  (detectsLoss_uint32.pair lawful_uint32 <| detectsLoss_bytes.pair lawful_bytes <|
    detectsLoss_text.pair lawful_text <| detectsLoss_text.pair lawful_text <|
    detectsLoss_int64.pair lawful_int64 <| detectsLoss_int64.pair lawful_int64 <|
    (detectsLoss_event.list lawful_event).pair lawful_event.list detectsLoss_text).map _ _

theorem detectsLoss_txResult : txResult.DetectsLoss :=
  (detectsLoss_int64.pair lawful_int64 <| detectsLoss_uint32.pair lawful_uint32 <|
    detectsLoss_bytes.pair lawful_bytes detectsLoss_execResult).map _ _

end Wire

/-! ## What is noticed -/

/-- The set holds the types of a list, and no others. -/
theorem MessageTypes.contains_ofList {urls : List String} {url : String} :
    (ofList urls).contains url = true ↔ url ∈ urls := by
  have hfold : ∀ s : MessageTypes,
      url ∈ (urls.foldl (fun s url => s.insert url) s).urls ↔ url ∈ s.urls ∨ url ∈ urls := by
    induction urls with
    | nil => simp
    | cons u urls ih =>
      intro s
      rw [List.foldl_cons, ih, show (s.insert u).urls = insertUrl u s.urls from rfl, mem_insertUrl,
        List.mem_cons]
      rw [or_assoc, or_left_comm]
  rw [contains, List.contains_iff_mem, ofList, hfold]
  simp [empty]

namespace Encoding

variable {α : Type}

/-- Values of bounded lengths are written, and where the written form of one is damaged at its end,
this is noticed. -/
structure NoticesDamage (lengths : α → List Nat) (written : α → List UInt8 → Prop)
    (read : List UInt8 → Except Failure α) (subject : String) : Prop where
  /-- A value is written unless one of its lengths is too great. -/
  isWritten : ∀ a, (∀ n ∈ lengths a, n < 2 ^ 32) → ∃ bs, written a bs
  /-- From a proper part at the front nothing is read, wherever it ends. -/
  torn : ∀ a bs front, written a bs → front <+: bs → front ≠ bs →
    read front = .error (.decode subject "Unexpected length of input")
  /-- Nothing is read with other bytes behind, whatever they are. -/
  padded : ∀ a bs added, written a bs → added ≠ [] →
    read (bs ++ added) = .error (.decode subject "Not all bytes read")
  /-- No written form is a proper part at the front of another. -/
  apart : ∀ a a' bs bs', written a bs → written a' bs' → bs <+: bs' → bs = bs'

open Wire Codec

/-- Damage is noticed where a codec notices it and its faults are reported. -/
theorem noticesDamage_of {c : Codec α} {lengths : α → List Nat} {written : α → List UInt8 → Prop}
    {read : List UInt8 → Except Failure α} {subject : String} (hlawful : c.Lawful)
    (hloss : c.DetectsLoss) (hlengths : c.Measures lengths)
    (hwritten : ∀ a bs, written a bs ↔ encodeAs c subject a = .ok bs)
    (hread : ∀ bs fault, c.decodeAll bs = .error fault →
      read bs = .error (.decode subject fault.message)) :
    NoticesDamage lengths written read subject := by
  simp only [encodeAs_eq_ok] at hwritten
  constructor
  case isWritten =>
    intro a ha
    exact ⟨_, (hwritten a _).2 ⟨(hlengths a).2 ha, rfl⟩⟩
  case torn =>
    intro a bs front hbs hfront hne
    obtain ⟨ha, rfl⟩ := (hwritten a bs).1 hbs
    exact hread front .endOfInput (hloss.decodeAll ha hfront hne)
  case padded =>
    intro a bs added hbs hadded
    obtain ⟨ha, rfl⟩ := (hwritten a bs).1 hbs
    exact hread _ .trailingBytes (hlawful.decodeAll_append ha hadded)
  case apart =>
    intro a a' bs bs' hbs hbs' hfront
    obtain ⟨ha, rfl⟩ := (hwritten a bs).1 hbs
    obtain ⟨ha', rfl⟩ := (hwritten a' bs').1 hbs'
    exact hloss.encode_eq hlawful ha ha' hfront

variable {e : Encoding} {bs : List UInt8} {fault : Fault}

theorem decodeAs_of_fault {c : Codec α} (subject : String) (h : c.decodeAll bs = .error fault) :
    decodeAs c subject bs = .error (.decode subject fault.message) := by
  rw [decodeAs, h]
  rfl

/-- The types are looked at after the bytes, so they are no reason where the bytes are at fault. -/
theorem decodeTx_of_fault (h : Wire.tx.decodeAll bs = .error fault) :
    e.decodeTx bs = .error (.decode "tx" fault.message) := by
  rw [decodeTx, decodeAs_of_fault "tx" h]
  rfl

theorem decodeMessages_of_fault (h : Wire.messages.decodeAll bs = .error fault) :
    e.decodeMessages bs = .error (.decode "messages" fault.message) := by
  rw [decodeMessages, decodeAs_of_fault "messages" h]
  rfl

/-- Messages have one written form, wherever their types are accepted; and somewhere they are. -/
theorem exists_encodeMessages_iff {messages : List Message} :
    (∃ writer : Encoding, writer.encodeMessages messages = .ok bs) ↔
      encodeAs Wire.messages "messages" messages = .ok bs := by
  simp only [encodeMessages_eq_ok, exists_and_left, and_iff_left_iff_imp]
  intro _
  refine ⟨⟨.ofList (messages.map (·.typeUrl))⟩, fun m hm => ?_⟩
  exact MessageTypes.contains_ofList.2 (List.mem_map_of_mem hm)

/-- **Damage at the end is always noticed**: to the written form of a transaction, of messages,
under whatever encoding they were written, and of a result. The reasons are the same whatever
message types the reader accepts. -/
theorem damage_noticed (e : Encoding) :
    NoticesDamage Tx.lengths (fun tx bs => encodeTx tx = .ok bs) e.decodeTx "tx" ∧
    NoticesDamage Message.lengthsOf
      (fun messages bs => ∃ writer : Encoding, writer.encodeMessages messages = .ok bs)
      e.decodeMessages "messages" ∧
    NoticesDamage TxResult.lengths (fun r bs => encodeResult r = .ok bs) decodeResult
      "tx result" := by
  refine ⟨?_, ?_, ?_⟩
  · exact noticesDamage_of lawful_tx detectsLoss_tx measures_tx (fun _ _ => Iff.rfl)
      fun _ _ => decodeTx_of_fault
  · exact noticesDamage_of lawful_messages detectsLoss_messages measures_messages
      (fun _ _ => exists_encodeMessages_iff) fun _ _ => decodeMessages_of_fault
  · exact noticesDamage_of lawful_txResult detectsLoss_txResult measures_txResult
      (fun _ _ => Iff.rfl) fun _ _ => decodeAs_of_fault "tx result"

example : (standard.decodeMessages [1, 0, 0]).mapError Failure.message =
    .error "decode messages: Unexpected length of input" := by decide

end Encoding
end TxIndex
