import TxIndex.Proofs.Query.Heights
import TxIndex.Proofs.Run.Log
import TxIndex.Proofs.Text.Numerals

/-! # Indexed attributes are found

A transaction can be searched for by its height and any of its attributes. Each event keeps one
value for a key, that of the first indexed attribute, and a transaction is found by every value that
is kept (`History.search_finds_attribute`). A later attribute of the same key in the same event with
another value is not kept, and nothing is found by it (`History.search_misses_later_value`).

The proof needs no ranking: a posting that meets all conditions of a plan is among the hits if no
more postings than the limit can meet them, and at one height there are no more of them than results
of that height (`Journal.Valid.length_ranking_le`). -/
namespace TxIndex

namespace Event

variable {e : Event} {key : String} {a a' : EventAttribute}

/-- The first indexed attribute of a key. -/
def firstIndexed? (e : Event) (key : String) : Option EventAttribute :=
  e.attributes.find? fun a => a.indexed && a.key = key

theorem exists_firstIndexed? (ha : a ∈ e.attributes) (hindexed : a.indexed = true) :
    ∃ a', e.firstIndexed? a.key = some a' ∧ a'.key = a.key := by
  have hsome : (e.firstIndexed? a.key).isSome := by
    rw [firstIndexed?, List.find?_isSome]
    exact ⟨a, ha, by simp [hindexed]⟩
  obtain ⟨a', ha'⟩ := Option.isSome_iff_exists.1 hsome
  have hkey := List.find?_some ha'
  simp only [Bool.and_eq_true, decide_eq_true_eq] at hkey
  exact ⟨a', ha', hkey.2⟩

/-- The first indexed attribute of a key is recorded. -/
theorem mem_recordedAttributes (h : e.firstIndexed? key = some a) : a ∈ e.recordedAttributes := by
  obtain ⟨ha, before, after, hsplit, hbefore⟩ := List.find?_eq_some_iff_append.1 h
  obtain ⟨hindexed, rfl⟩ : a.indexed = true ∧ a.key = key := by simpa using ha
  rw [recordedAttributes, firstOfEachKey_eq, mem_firstOfEach]
  refine ⟨before.filter (·.indexed), after.filter (·.indexed), ?_, ?_⟩
  · rw [hsplit, List.filter_append, List.filter_cons_of_pos hindexed]
  · intro b hb
    obtain ⟨hb, hindexed⟩ := List.mem_filter.1 hb
    simpa [hindexed] using hbefore b hb

end Event

/-- A recorded attribute of an event with a type is one under which the transaction is found. -/
theorem TxResult.mem_indexedValues {r : TxResult} {e : Event} (he : e ∈ r.result.events)
    (hkind : e.kind ≠ "") {a : EventAttribute} (ha : a ∈ e.recordedAttributes) :
    (e.compositeKey a.key, a.value) ∈ r.indexedValues := by
  have hevent : e ∈ r.recordedEvents (txHash r.tx) :=
    List.mem_cons_of_mem _ (List.mem_cons_of_mem _
      (List.mem_filter.2 ⟨he, by simpa [Event.isTyped] using hkind⟩))
  exact List.mem_flatMap.2 ⟨e, hevent, List.mem_map_of_mem ha⟩

/-- A query for a height and one other condition looks at that height and filters by the other. -/
theorem Plan.compileWithin_height {arg : Argument} {h : Int64}
    (harg : arg.raw = (Literal.ofInt64 h).text) {c : Condition} (htag : c.tag ≠ txHeightKey)
    (hlacks : lacksArgument c = false) (limit ceiling : UInt16) :
    compileWithin ⟨[.compare .eq txHeightKey arg, c]⟩ limit ceiling =
      .ok ⟨.exact h, [c], min limit ceiling⟩ := by
  have hfixes : (Condition.compare .eq txHeightKey arg).fixesHeight = true := rfl
  have hother : c.fixesHeight = false := by simp [Condition.fixesHeight, htag]
  have hlimit : c.heightLimit? = none := if_neg htag
  have hfixed : Condition.splitFixed [.compare .eq txHeightKey arg, c] = .ok ([c], some h) := by
    simp only [Condition.splitFixed, hfixes, hother, Condition.height_of_raw harg]
    rfl
  have hrange : Condition.splitRange [c] = .ok ([c], .all) := by
    simp only [Condition.splitRange, Condition.splitLimits, hlimit]
    rfl
  simp only [compileWithin, hfixed, hrange, bind, Except.bind, List.find?, hlacks]
  rfl

/-- The number of transactions of a height: its results with their requests. -/
def Database.txCount (db : Database) (height : Int64) : Nat :=
  db.pairs.countP (·.result.height = height)

namespace Journal

variable {j : Journal}

/-- No more transactions of a height meet conditions than there are. -/
theorem Valid.length_ranking_le (hv : j.Valid) (h : Int64) (filters : List Condition) :
    (j.ranking [(.eq, h)] filters).length ≤ j.database.txCount h := by
  rw [← (hv.shows_ranking _ filters).length_eq, Database.ranking, List.length_mergeSort,
    Database.selected, ← List.countP_eq_length_filter, Database.txCount]
  apply List.countP_mono_left
  intro m _ hm
  have hheight := (Bool.and_eq_true_iff.1 hm).1
  simp only [Database.admitsHeight, List.all_cons, List.all_nil, Bool.and_true,
    Comparison.admits_height] at hheight
  exact decide_eq_true hheight

/-- A posting that meets a condition is among the hits of a search at its height, if all
transactions of the height may be. -/
theorem Valid.mem_search_of_meets (hv : j.Valid) {p : Posting} (hp : p ∈ j.postings)
    {c : Condition} (hc : p.meets c = true) {limit : UInt16}
    (hlimit : j.database.txCount p.height ≤ limit.toNat) (chainId : String) :
    p.stored ∈ j.search chainId ⟨.exact p.height, [c], limit⟩ := by
  have hranked : p ∈ j.ranking [(.eq, p.height)] [c] := by
    refine mem_ranking.2 ⟨hp, ?_, by simpa using hc⟩
    simp [Database.admitsHeight, Comparison.admits]
  have htake := List.take_of_length_le ((hv.length_ranking_le p.height [c]).trans hlimit)
  simp only [search, HeightWindow.bounds?, htake]
  exact List.mem_map_of_mem hranked

end Journal
namespace History

variable {steps : List Step} {s : Store} {r : TxResult} {q : TxRequest} {e : Event}
  {a : EventAttribute}

/-- The query for a height and the value of an attribute. -/
def attributeQuery (height : Argument) (e : Event) (a : EventAttribute) : Query :=
  ⟨[.compare .eq txHeightKey height, .compare .eq (e.compositeKey a.key) (.text a.value)]⟩

/-- **A transaction is found by its attributes.** A history has made a result and a request at its
place. Whatever indexed attribute an event of the result has, the search for the height and the
value of the attribute finds the transaction, provided that the first indexed attribute of that key
in the event has the same value, and that the limit lets all transactions of the height through. -/
theorem search_finds_attribute (hopen : s.isOpen (run steps .empty) = true)
    (hr : .result s.chainId r ∈ made steps) (hq : .request s.chainId r.height q ∈ made steps)
    (hindex : q.index = r.index) (he : e ∈ r.result.events) (hkind : e.kind ≠ "")
    (ha : a ∈ e.attributes) (hindexed : a.indexed = true)
    (hfirst : ∀ a', e.firstIndexed? a.key = some a' → a'.value = a.value)
    (hkey : e.compositeKey a.key ≠ txHeightKey) {height : Argument}
    (hheight : height.raw = (Literal.ofInt64 r.height).text) {limit ceiling : UInt16}
    (hlimit : (run steps .empty).database.txCount r.height ≤ (min limit ceiling).toNat) :
    ∃ p rows, Plan.compileWithin (attributeQuery height e a) limit ceiling = .ok p ∧
      s.search p (run steps .empty) = .ok rows ∧ (Posting.mk s.chainId r q).stored ∈ rows := by
  obtain ⟨j, closed, hrun, hleads⟩ := run_leads steps .nil []
  change run steps .empty = _ at hrun
  have hv : j.Valid := hleads.valid .nil
  have hj : j = made steps := hleads.eq_of_nil
  rw [hrun] at hopen hlimit ⊢
  rw [← hj] at hr hq
  have hposting : Posting.mk s.chainId r q ∈ j.postings := Journal.mem_postings.2 ⟨hr, hq, hindex⟩
  obtain ⟨a', ha', hkey'⟩ := Event.exists_firstIndexed? ha hindexed
  have hvalue : (e.compositeKey a.key, a.value) ∈ r.indexedValues := by
    rw [← hkey', ← hfirst a' ha']
    exact TxResult.mem_indexedValues he hkind (Event.mem_recordedAttributes ha')
  have hmeets : (Posting.mk s.chainId r q).meets
      (.compare .eq (e.compositeKey a.key) (.text a.value)) = true := by
    refine List.any_eq_true.2 ⟨_, hvalue, ?_⟩
    simp [Condition.compare, Condition.test, Test.holds, Comparison.admits]
  refine ⟨_, _, Plan.compileWithin_height hheight hkey rfl limit ceiling, if_pos hopen, ?_⟩
  rw [hv.search_database]
  exact hv.mem_search_of_meets hposting hmeets hlimit s.chainId

/-- An event with two indexed attributes of one key. -/
def repeatedKey : Event := ⟨"n", [⟨"v", "1", true⟩, ⟨"v", "2", true⟩]⟩

/-- A result with that event. -/
def repeatedKeyResult : TxResult := ⟨1, 0, [], ⟨0, [], "", "", 0, 0, [repeatedKey], ""⟩⟩

/-- The request at its place. -/
def repeatedKeyRequest : TxRequest := ⟨1, 0, ⟨0, 0⟩, "", [], "", ""⟩

/-- A history that records both. -/
def repeatedKeySteps (s : Store) : List Step :=
  [.operation ⟨s, .indexBlock ⟨1, ⟨0, 0⟩, [], 1⟩⟩, .operation ⟨s, .indexTxs [repeatedKeyResult]⟩,
    .operation ⟨s, .insertRequest ⟨1, ⟨0, 0⟩, [], 1⟩ repeatedKeyRequest⟩]

/-- The general statement at the first of two attributes of one key. -/
theorem search_finds_first_value :
    let s : Store := ⟨0, "testing"⟩
    let steps := repeatedKeySteps s
    let a : EventAttribute := ⟨"v", "1", true⟩
    s.isOpen (run steps .empty) = true ∧ .result s.chainId repeatedKeyResult ∈ made steps ∧
      .request s.chainId 1 repeatedKeyRequest ∈ made steps ∧
      repeatedKey ∈ repeatedKeyResult.result.events ∧ a ∈ repeatedKey.attributes ∧
      (run steps .empty).database.txCount 1 ≤ (min 10 Plan.ceiling).toNat ∧
      ∃ p rows, Plan.compileWithin (attributeQuery (.number ⟨"1"⟩) repeatedKey a) 10 Plan.ceiling =
        .ok p ∧ s.search p (run steps .empty) = .ok rows ∧
        (Posting.mk s.chainId repeatedKeyResult repeatedKeyRequest).stored ∈ rows := by
  intro s steps a
  have hopen : s.isOpen (run steps .empty) = true := by decide +kernel
  have hr : .result s.chainId repeatedKeyResult ∈ made steps := by decide +kernel
  have hq : .request s.chainId 1 repeatedKeyRequest ∈ made steps := by decide +kernel
  have he : repeatedKey ∈ repeatedKeyResult.result.events := by decide
  have ha : a ∈ repeatedKey.attributes := by decide
  have hlimit : (run steps .empty).database.txCount 1 ≤ (min 10 Plan.ceiling).toNat := by
    decide +kernel
  have hfirst : ∀ a', repeatedKey.firstIndexed? a.key = some a' → a'.value = a.value := by
    rintro a' h
    obtain rfl := Option.some.inj h
    rfl
  exact ⟨hopen, hr, hq, he, ha, hlimit,
    search_finds_attribute hopen hr hq rfl he (by decide) ha rfl hfirst (by decide)
      (by decide +kernel) hlimit⟩

/-- The second of two attributes of one key meets all other conditions, but the search for its
height and its value finds nothing. -/
theorem search_misses_later_value :
    let s : Store := ⟨0, "testing"⟩
    let steps := repeatedKeySteps s
    let a : EventAttribute := ⟨"v", "2", true⟩
    s.isOpen (run steps .empty) = true ∧ .result s.chainId repeatedKeyResult ∈ made steps ∧
      .request s.chainId 1 repeatedKeyRequest ∈ made steps ∧
      repeatedKey ∈ repeatedKeyResult.result.events ∧ repeatedKey.kind ≠ "" ∧
      a ∈ repeatedKey.attributes ∧ a.indexed = true ∧
      repeatedKey.compositeKey a.key ≠ txHeightKey ∧
      (run steps .empty).database.txCount 1 ≤ (min 10 Plan.ceiling).toNat ∧
      ∃ p, Plan.compileWithin (attributeQuery (.number ⟨"1"⟩) repeatedKey a) 10 Plan.ceiling =
        .ok p ∧ s.search p (run steps .empty) = .ok [] := by
  refine ⟨by decide +kernel, by decide +kernel, by decide +kernel, by decide, by decide, by decide,
    rfl, by decide, by decide +kernel, ⟨.exact 1, [.compare .eq "n.v" (.text "2")], 10⟩, ?_, ?_⟩
  · decide +kernel
  · decide +kernel

end History
end TxIndex
