/-! # Message types

A set of message types, each named by its address. The names are kept in ascending order, without
repetition; so a set has one form, and its elements come out in order. -/
namespace TxIndex

/-- A set of message types. -/
structure MessageTypes where
  urls : List String
  ascending : urls.Pairwise (· < ·) := by simp

namespace MessageTypes

/-- The name put in its place, if it is not there. -/
def insertUrl (url : String) : List String → List String
  | [] => [url]
  | u :: us =>
    if url < u then url :: u :: us else if url = u then u :: us else u :: insertUrl url us

theorem mem_insertUrl {url x : String} {us : List String} :
    x ∈ insertUrl url us ↔ x = url ∨ x ∈ us := by
  induction us with
  | nil => simp [insertUrl]
  | cons u us ih =>
    unfold insertUrl
    split
    · simp
    split
    · rename_i h
      simp [h]
    · simp only [List.mem_cons, ih]
      grind

theorem pairwise_insertUrl {url : String} {us : List String} (h : us.Pairwise (· < ·)) :
    (insertUrl url us).Pairwise (· < ·) := by
  induction us with
  | nil => simp [insertUrl]
  | cons u us ih =>
    obtain ⟨hu, hus⟩ := List.pairwise_cons.1 h
    unfold insertUrl
    split
    · rename_i hlt
      exact List.pairwise_cons.2 ⟨fun x hx => (List.mem_cons.1 hx).elim (· ▸ hlt)
        fun hx => String.lt_trans hlt (hu x hx), h⟩
    split
    · exact h
    · rename_i hlt hne
      have hgt : u < url := by
        rcases String.le_total u url with h | h
        · exact String.not_le.1 fun h' => hne (String.le_antisymm h' h)
        · exact absurd (String.not_le.1 fun h' => hne (String.le_antisymm h h')) hlt
      refine List.pairwise_cons.2 ⟨fun x hx => ?_, ih hus⟩
      exact (mem_insertUrl.1 hx).elim (· ▸ hgt) (hu x)

/-- No type. -/
def empty : MessageTypes := ⟨[], List.Pairwise.nil⟩

/-- The set with one more type. -/
def insert (url : String) (s : MessageTypes) : MessageTypes :=
  ⟨insertUrl url s.urls, pairwise_insertUrl s.ascending⟩

/-- The types of a list. -/
def ofList (urls : List String) : MessageTypes := urls.foldl (fun s url => s.insert url) empty

/-- The type is in the set. -/
def contains (s : MessageTypes) (url : String) : Bool := s.urls.contains url

/-- Transfers of coins. -/
def sendUrl : String := "/cosmos.bank.v1beta1.MsgSend"

/-- Creations of a contract. -/
def instantiateContractUrl : String := "/cosmwasm.wasm.v1.MsgInstantiateContract"

/-- Calls of a contract. -/
def executeContractUrl : String := "/cosmwasm.wasm.v1.MsgExecuteContract"

/-- Transfers of coins, and creations and calls of contracts. -/
def standard : MessageTypes := ofList [sendUrl, instantiateContractUrl, executeContractUrl]

end MessageTypes
end TxIndex
