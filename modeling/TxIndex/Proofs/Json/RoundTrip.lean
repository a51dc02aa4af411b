import Mathlib.Data.List.Nodup
import TxIndex.Encoding
import TxIndex.Proofs.Json.Values

/-! # Reading back what was written as JSON

A type is faithful to its JSON form if every value of it is read back, both from the text to the JSON
value and from there (`Json.Faithful`). Lists of a faithful type and the records of such are faithful;
with that, fees are read back from their stored texts, though members with empty texts are left out of
them (`Encoding.fee_round_trip`).

A record is read member by member, in any order, so what counts is that no two members have one name
(`Json.record?_object`). Of a member that is left out where its text is empty, the reader finds
either the text or nothing, and takes nothing for the empty text (`Json.getD?_unlessEmpty`). -/
namespace TxIndex
namespace Json

/-- What is written of a type is read back. -/
structure Faithful (α : Type) [JsonForm α] : Prop where
  readsBack : ∀ a : α, (Json.of a).ReadsBack
  as?_of : ∀ a : α, as? (Json.of a) = some a

section

variable {α : Type} [JsonForm α]

/-- A value of the type is read back from its text. -/
theorem Faithful.read?_write (h : Faithful α) (a : α) :
    (read? (Json.of a).write).bind as? = some a := by
  rw [(h.readsBack a).read?_write]
  exact h.as?_of a

theorem faithful_string : Faithful String where
  readsBack := ReadsBack.text
  as?_of := fun _ => rfl

theorem faithful_uint64 : Faithful UInt64 where
  readsBack := fun n => ReadsBack.integer n.toNat
  as?_of := by
    intro n
    have hn : n.toNat < UInt64.size := n.toNat_lt_size
    have hwithin : (0 : Int) ≤ n.toNat ∧ (n.toNat : Int) ≤ UInt64.size - 1 := by omega
    show (integerWithin? 0 (UInt64.size - 1) (.integer n.toNat)).map _ = some n
    rw [integerWithin?, if_pos hwithin, Option.map_some, Int.toNat_natCast, UInt64.ofNat_toNat]

theorem faithful_list (h : Faithful α) : Faithful (List α) where
  readsBack := by
    intro as
    apply ReadsBack.array
    intro x hx
    obtain ⟨a, -, rfl⟩ := List.mem_map.1 hx
    exact h.readsBack a
  as?_of := by
    intro as
    show (as.map JsonForm.toJson).mapM JsonForm.ofJson? = some as
    induction as with
    | nil => rfl
    | cons a as ih =>
      have ha : JsonForm.ofJson? (JsonForm.toJson a) = some a := h.as?_of a
      rw [List.map_cons, List.mapM_cons, ha, ih]
      rfl

/-- An object of different keys holds a record. -/
theorem record?_object {ms : List (String × Json)} (h : (ms.map Prod.fst).Nodup)
    (names : List String) : (Json.object ms).record? names = some ⟨true, ms⟩ := by
  have hall : (names.all fun name => (ms.filter (·.1 = name)).length ≤ 1) = true := by
    rw [List.all_eq_true]
    intro name _
    have hcount := List.nodup_iff_count_le_one.1 h name
    rw [List.count, List.countP_map, List.countP_eq_length_filter] at hcount
    exact decide_eq_true hcount
  rw [record?, if_pos hall]

theorem faithful_coin : Faithful Coin where
  readsBack := by
    intro c
    apply ReadsBack.object
    intro m hm
    rcases List.mem_pair.1 hm with rfl | rfl
    · exact faithful_string.readsBack c.denom
    · exact faithful_string.readsBack c.amount
  as?_of := by
    intro c
    let ms := [("denom", of c.denom), ("amount", of c.amount)]
    have hnodup : (ms.map Prod.fst).Nodup := by simp [ms]
    show (record? ["denom", "amount"] (.object ms)).bind (fun r => _) = some c
    rw [record?_object hnodup]
    rfl

theorem readsBack_of_mem_unlessEmpty {name s : String} {m : String × Json}
    (h : m ∈ unlessEmpty name s) : m.2.ReadsBack := by
  unfold unlessEmpty at h
  split at h
  · exact absurd h List.not_mem_nil
  · obtain rfl := List.mem_singleton.1 h
    exact ReadsBack.text s

theorem map_fst_unlessEmpty (name s : String) :
    (unlessEmpty name s).map Prod.fst = if s = "" then [] else [name] := by
  unfold unlessEmpty
  split <;> rfl

theorem lookup_unlessEmpty_of_ne {name name' : String} (h : name ≠ name') (s : String) :
    (unlessEmpty name' s).lookup name = none := by
  unfold unlessEmpty
  split
  · rfl
  · rw [List.lookup_cons, beq_eq_false_iff_ne.2 h]
    rfl

/-- Where a text was left out, the default is the text. -/
theorem getD?_unlessEmpty {before after : List (String × Json)} {name : String}
    (hbefore : before.lookup name = none) (hafter : after.lookup name = none) (s : String) :
    (⟨true, before ++ unlessEmpty name s ++ after⟩ : Record).getD? name "" = some s := by
  unfold Record.getD?
  rw [List.lookup_append, List.lookup_append, hbefore, hafter]
  unfold unlessEmpty
  by_cases hs : s = ""
  · rw [if_pos hs, hs]
    rfl
  · rw [if_neg hs]
    simp only [List.lookup_cons, beq_self_eq_true]
    rfl

theorem faithful_fee : Faithful Fee where
  readsBack := by
    intro f
    apply ReadsBack.object
    intro m hm
    rcases List.mem_append.1 hm with hm | hm
    · rcases List.mem_append.1 hm with hm | hm
      · rcases List.mem_pair.1 hm with rfl | rfl
        · exact (faithful_list faithful_coin).readsBack f.amount
        · exact faithful_uint64.readsBack f.gasLimit
      · exact readsBack_of_mem_unlessEmpty hm
    · exact readsBack_of_mem_unlessEmpty hm
  as?_of := by
    intro f
    let ms := [("amount", of f.amount), ("gas_limit", of f.gasLimit)] ++
      unlessEmpty "payer" f.payer ++ unlessEmpty "granter" f.granter
    have hnodup : (ms.map Prod.fst).Nodup := by
      simp only [ms, unlessEmpty]
      split <;> split <;> simp
    have hamount : (⟨true, ms⟩ : Record).get? "amount" = some f.amount :=
      (faithful_list faithful_coin).as?_of f.amount
    have hgas : (⟨true, ms⟩ : Record).get? "gas_limit" = some f.gasLimit :=
      faithful_uint64.as?_of f.gasLimit
    have hpayer : (⟨true, ms⟩ : Record).getD? "payer" "" = some f.payer :=
      getD?_unlessEmpty rfl (lookup_unlessEmpty_of_ne (by decide) f.granter) f.payer
    have hgranter : (⟨true, ms⟩ : Record).getD? "granter" "" = some f.granter := by
      have hbefore : ([("amount", of f.amount), ("gas_limit", of f.gasLimit)] ++
          unlessEmpty "payer" f.payer).lookup "granter" = none := by
        rw [List.lookup_append, lookup_unlessEmpty_of_ne (by decide) f.payer]
        rfl
      have hafter : ([] : List (String × Json)).lookup "granter" = none := rfl
      have h := getD?_unlessEmpty hbefore hafter f.granter
      rwa [List.append_nil] at h
    show (record? ["amount", "gas_limit", "payer", "granter"] (.object ms)).bind (fun r => _) =
      some f
    rw [record?_object hnodup]
    show ((⟨true, ms⟩ : Record).get? "amount").bind _ = some f
    rw [hamount]
    show ((⟨true, ms⟩ : Record).get? "gas_limit").bind _ = some f
    rw [hgas]
    show ((⟨true, ms⟩ : Record).getD? "payer" "").bind _ = some f
    rw [hpayer]
    show ((⟨true, ms⟩ : Record).getD? "granter" "").bind _ = some f
    rw [hgranter]
    rfl

end

end Json

namespace Encoding

/-- A fee is read back from its JSON text. -/
theorem decodeFee_encodeFee (complaint : String → String) (fee : Fee) :
    decodeFee (encodeFee fee) complaint = .ok fee := by
  rw [decodeFee, encodeFee, Json.faithful_fee.read?_write]

/-- **Fees are stored without loss.** Every fee is read back from its text, so no two fees have the
same text. The text is that of an object, which always says the amount and the gas, and the payer and
the granter where they are not empty. -/
theorem fee_round_trip :
    (∀ complaint fee, decodeFee (encodeFee fee) complaint = .ok fee) ∧
      Function.Injective encodeFee ∧
      ∀ fee, ∃ members, Json.read? (encodeFee fee) = some (.object members) ∧
        members.map Prod.fst = ["amount", "gas_limit"] ++
          (if fee.payer = "" then [] else ["payer"]) ++
          (if fee.granter = "" then [] else ["granter"]) := by
  refine ⟨decodeFee_encodeFee, fun fee fee' htexts => ?_, fun fee => ?_⟩
  · have hread : decodeFee (encodeFee fee) = decodeFee (encodeFee fee') := by rw [htexts]
    rw [decodeFee_encodeFee, decodeFee_encodeFee] at hread
    exact Except.ok.inj hread
  · refine ⟨_, (Json.faithful_fee.readsBack fee).read?_write, ?_⟩
    rw [List.map_append, List.map_append, Json.map_fst_unlessEmpty, Json.map_fst_unlessEmpty]
    rfl

example : encodeFee ⟨[], 7, "a\"\\\n", ""⟩ =
    "\x7b\"amount\":[],\"gas_limit\":7,\"payer\":\"a\\\"\\\\\\n\"\x7d" := by
  decide +kernel

end Encoding
end TxIndex
