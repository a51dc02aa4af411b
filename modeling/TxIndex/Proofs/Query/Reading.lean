import TxIndex.Proofs.Query.Tokens

/-! # The queries that are read

The reader follows the grammar. It takes a condition off the front exactly where blanks and a
written form of the condition stand, and what comes next could not belong to it
(`Query.condition_eq_ok`). Where conditions are joined by `AND` nothing that comes next could belong
to one, so a query is read exactly from the texts that write it (`Query.parse_eq_ok`). A text
therefore writes one query at most, and texts that write none are refused
(`Query.parse_accepts_grammar`). -/
namespace TxIndex

open Query

namespace Condition

/-- What follows could not belong to the last part of the condition. -/
def Ends (c : Condition) (rest : List Char) : Prop :=
  match c.arg with
  | none => Stops isTagChar rest
  | some arg => arg.Ends rest

variable {c : Condition} {w rest : List Char}

theorem WrittenAs.ends (h : c.WrittenAs w) (htag : c.op = .present → Stops isTagChar rest)
    (hnumber : Stops isNumberChar rest) : c.Ends rest := by
  cases h with
  | present => exact htag rfl
  | contains => trivial
  | compare isTag hgap hgap' harg =>
    cases harg with
    | text => trivial
    | number => exact hnumber

/-- No character of a tag follows a keyword. -/
theorem WrittenAs.stops_of_ends (h : c.WrittenAs w) (hop : c.op = .present) (hends : c.Ends rest) :
    Stops isTagChar rest := by
  cases h with
  | present => exact hends
  | contains | compare => cases hop

/-- A condition begins with its tag. -/
theorem WrittenAs.exists_tag (h : c.WrittenAs w) : ∃ tag v, IsTag tag ∧ w = tag ++ v := by
  cases h with
  | present isTag | contains isTag | compare isTag =>
    simp only [List.append_assoc]
    exact ⟨_, _, isTag, rfl⟩

end Condition

namespace Query

variable {cs rest : List Char} {c : Condition} {tag : String}

/-! ## Conditions -/

/-- What may stand behind a tag, and the condition that it makes of it. -/
theorem test_cases (h : test tag cs = .ok (c, rest)) :
    (∃ word, Spells "EXISTS" word ∧ cs = word ++ rest ∧ Stops isTagChar rest ∧
      c = .present tag) ∨
    (∃ word gap text, Spells "CONTAINS" word ∧ IsBlanks gap ∧ apostrophe ∉ text ∧
      cs = word ++ (gap ++ apostrophe :: (text ++ apostrophe :: rest)) ∧
      c = .contains tag (String.ofList text)) ∨
    (∃ o gap arg w, IsBlanks gap ∧ arg.WrittenAs w ∧ arg.Ends rest ∧
      cs = o.symbol.toList ++ (gap ++ (w ++ rest)) ∧ c = .compare o tag arg) := by
  unfold test at h
  split at h
  · rename_i hk
    cases h
    obtain ⟨word, hword, hcs, hstop⟩ := keyword?_eq_some.1 hk
    exact .inl ⟨word, hword, hcs, hstop, rfl⟩
  split at h
  · rename_i after hk
    obtain ⟨word, hword, rfl, -⟩ := keyword?_eq_some.1 hk
    obtain ⟨gap, hgap, hafter, -⟩ := exists_blanks after
    rcases ha : argument (skipBlanks after) with _ | ⟨_ | _, rest'⟩ <;>
      simp only [ha, bind, Except.bind] at h <;> cases h
    obtain ⟨w, hw, hskip, -⟩ := argument_eq_ok.1 ha
    cases hw with
    | text plain =>
      exact .inr (.inl ⟨word, gap, _, hword, hgap, plain, by simpa [hskip] using hafter, rfl⟩)
  split at h
  · cases h
  · rename_i o after hc
    obtain ⟨gap, hgap, hafter, -⟩ := exists_blanks after
    rcases ha : argument (skipBlanks after) with _ | ⟨arg, rest'⟩ <;>
      simp only [ha, bind, Except.bind] at h <;> cases h
    obtain ⟨w, hw, hskip, hends⟩ := argument_eq_ok.1 ha
    refine .inr (.inr ⟨o, gap, arg, w, hgap, hw, hends, ?_, rfl⟩)
    rw [← hskip, ← hafter]
    exact eq_append_of_comparison? hc

/-- An argument is read behind blanks. -/
theorem argument_skipBlanks {arg : Argument} {gap w : List Char} (hgap : IsBlanks gap)
    (hw : arg.WrittenAs w) (hends : arg.Ends rest) :
    argument (skipBlanks (gap ++ (w ++ rest))) = .ok (arg, rest) := by
  have hstop : Stops isBlank (w ++ rest) := by
    obtain ⟨a, v, rfl, ha, -⟩ := hw.exists_head
    exact stops_cons.2 ha
  rw [skipBlanks_append hgap hstop]
  exact argument_eq_ok.2 ⟨w, hw, rfl, hends⟩

theorem test_present {word : List Char} (hword : Spells "EXISTS" word)
    (hrest : Stops isTagChar rest) : test tag (word ++ rest) = .ok (.present tag, rest) := by
  have hk := keyword?_eq_some.2 ⟨word, hword, rfl, hrest⟩
  simp only [test, hk]

theorem test_contains {word gap text : List Char} (hword : Spells "CONTAINS" word)
    (hgap : IsBlanks gap) (hplain : apostrophe ∉ text) :
    test tag (word ++ (gap ++ apostrophe :: (text ++ apostrophe :: rest))) =
      .ok (.contains tag (String.ofList text), rest) := by
  have hstop : Stops isTagChar (gap ++ apostrophe :: (text ++ apostrophe :: rest)) :=
    hgap.stops (by decide) fun _ => stops_cons.2 rfl
  have hother : keyword? "EXISTS"
      (word ++ (gap ++ apostrophe :: (text ++ apostrophe :: rest))) = none := by
    obtain ⟨a, v, rfl, ha⟩ := hword.exists_cons rfl
    exact keyword?_eq_none rfl (by rw [ha]; decide)
  have hk := keyword?_eq_some.2 ⟨word, hword, rfl, hstop⟩
  have harg : argument (skipBlanks (gap ++ apostrophe :: (text ++ apostrophe :: rest))) =
      .ok (.text (String.ofList text), rest) := by
    simpa using argument_skipBlanks hgap (.text hplain) trivial
  simp only [test, hother, hk, harg, bind, Except.bind]

theorem test_compare {o : Comparison} {arg : Argument} {gap w : List Char} (hgap : IsBlanks gap)
    (hw : arg.WrittenAs w) (hends : arg.Ends rest) :
    test tag (o.symbol.toList ++ (gap ++ (w ++ rest))) = .ok (.compare o tag arg, rest) := by
  have hstop : Stops (· = '=') (gap ++ (w ++ rest)) := by
    refine hgap.stops (by decide) fun _ => ?_
    obtain ⟨a, v, rfl, -, ha⟩ := hw.exists_head
    exact stops_cons.2 (decide_eq_false ha)
  have hexists : keyword? "EXISTS" (o.symbol.toList ++ (gap ++ (w ++ rest))) = none := by
    cases o <;> exact keyword?_eq_none rfl (by decide)
  have hcontains : keyword? "CONTAINS" (o.symbol.toList ++ (gap ++ (w ++ rest))) = none := by
    cases o <;> exact keyword?_eq_none rfl (by decide)
  have harg := argument_skipBlanks hgap hw hends
  simp only [test, hexists, hcontains, comparison?_append o hstop, harg, bind, Except.bind]
  rfl

/-- Behind blanks, a tag and more blanks, the reader goes on with what stands behind the tag. -/
theorem condition_append {lead tag gap : List Char} (hlead : IsBlanks lead) (htag : IsTag tag)
    (hgap : IsBlanks gap) (hrest : Stops isBlank rest) (hstop : gap = [] → Stops isTagChar rest) :
    condition (lead ++ (tag ++ (gap ++ rest))) = test (String.ofList tag) rest := by
  obtain ⟨hne, hall⟩ := isTag_iff.1 htag
  have hstop : Stops isTagChar (gap ++ rest) := hgap.stops (by decide) hstop
  simp only [condition, skipBlanks_append hlead (htag.stops _), takeWhile_append hall hstop,
    dropWhile_append hall hstop, if_neg hne, skipBlanks_append hgap hrest]

theorem condition_cases (h : condition cs = .ok (c, rest)) : ∃ lead tag gap after,
    IsBlanks lead ∧ IsTag tag ∧ IsBlanks gap ∧ cs = lead ++ (tag ++ (gap ++ after)) ∧
      (gap = [] → Stops isTagChar after) ∧ test (String.ofList tag) after = .ok (c, rest) := by
  obtain ⟨lead, hlead, hcs, -⟩ := exists_blanks cs
  obtain ⟨gap, hgap, hafter, -⟩ := exists_blanks ((skipBlanks cs).dropWhile isTagChar)
  have hsplit := List.takeWhile_append_dropWhile (p := isTagChar) (l := skipBlanks cs)
  have hstop := stops_dropWhile isTagChar (skipBlanks cs)
  simp only [condition] at h
  split at h
  · cases h
  · rename_i hne
    have htag := isTag_iff.2 ⟨hne, fun _ => List.mem_takeWhile_imp⟩
    refine ⟨lead, _, gap, _, hlead, htag, hgap, ?_, fun hnil => ?_, h⟩
    · rw [← hafter, hsplit, ← hcs]
    · rwa [hafter, hnil] at hstop

/-- The reader takes a condition off the front exactly if blanks and a written form of the condition
stand there, and what follows could not belong to it. -/
theorem condition_eq_ok : condition cs = .ok (c, rest) ↔
    ∃ lead w, IsBlanks lead ∧ c.WrittenAs w ∧ cs = lead ++ (w ++ rest) ∧ c.Ends rest := by
  constructor
  · intro h
    obtain ⟨lead, tag, gap, after, hlead, htag, hgap, rfl, hstop, htest⟩ := condition_cases h
    -- A keyword is no part of the tag before it, so a blank stands between them.
    have happart : ∀ {word : String} {u : Char} {us v rest : List Char}, Spells word v →
        word.toList = u :: us → u.isUpper = true → after = v ++ rest → gap ≠ [] :=
      fun hv hword hu hafter hnil => hv.not_stops hword hu (hafter ▸ hstop hnil)
    rcases test_cases htest with ⟨word, hword, hafter, hrest, rfl⟩ |
      ⟨word, gap', text, hword, hgap', hplain, hafter, rfl⟩ |
      ⟨o, gap', arg, w, hgap', hw, hends, hafter, rfl⟩
    · refine ⟨lead, _, hlead, .present htag hgap (happart hword rfl rfl hafter) hword, ?_, hrest⟩
      simp [hafter]
    · refine ⟨lead, _, hlead, .contains htag hgap (happart hword rfl rfl hafter) hword hgap' hplain,
        ?_, trivial⟩
      simp [hafter]
    · refine ⟨lead, _, hlead, .compare htag hgap hgap' hw, ?_, hends⟩
      simp [hafter]
  · rintro ⟨lead, w, hlead, hw, rfl, hends⟩
    cases hw with
    | present htag hgap happart hword =>
      simp only [List.append_assoc]
      rw [condition_append hlead htag hgap (hword.stops rfl rfl _).1
        fun hnil => absurd hnil happart]
      exact test_present hword hends
    | contains htag hgap happart hword hgap' hplain =>
      simp only [List.append_assoc, List.cons_append, List.nil_append]
      rw [condition_append hlead htag hgap (hword.stops rfl rfl _).1
        fun hnil => absurd hnil happart]
      exact test_contains hword hgap' hplain
    | @compare tag gap gap' w o arg htag hgap hgap' harg =>
      simp only [List.append_assoc]
      rw [condition_append hlead htag hgap ?_ ?_]
      · exact test_compare hgap' harg hends
      · cases o <;> exact stops_cons.2 rfl
      · intro _
        cases o <;> exact stops_cons.2 rfl

/-! ## Conjunctions -/

theorem conditionList_last (h : condition cs = .ok (c, rest)) (hrest : skipBlanks rest = []) :
    conditionList cs = .ok [c] := by
  rw [conditionList]
  split
  · rename_i hc
    cases h.symm.trans hc
  · rename_i hc
    cases h.symm.trans hc
    rw [if_pos hrest]

theorem conditionList_more {next : List Char} (h : condition cs = .ok (c, rest))
    (hk : keyword? "AND" (skipBlanks rest) = some next) :
    conditionList cs = (c :: ·) <$> conditionList next := by
  have hne : skipBlanks rest ≠ [] := by
    obtain ⟨word, hword, happend, -⟩ := keyword?_eq_some.1 hk
    obtain ⟨a, v, rfl, -⟩ := hword.exists_cons rfl
    rw [happend]
    exact List.cons_ne_nil _ _
  rw [conditionList]
  split
  · rename_i hc
    cases h.symm.trans hc
  · rename_i hc
    cases h.symm.trans hc
    rw [if_neg hne]
    split
    · rename_i hk'
      cases hk.symm.trans hk'
    · rename_i hk'
      cases hk.symm.trans hk'
      rfl

/-- Conditions joined by `AND` begin with a tag. -/
theorem Joins.exists_tag {conditions : List Condition} {w : List Char} (h : Joins conditions w) :
    ∃ tag v, IsTag tag ∧ w = tag ++ v := by
  cases h with
  | last hc | more hc =>
    obtain ⟨tag, v, htag, rfl⟩ := hc.exists_tag
    simp only [List.append_assoc]
    exact ⟨tag, _, htag, rfl⟩

theorem joins_of_conditionList {conditions : List Condition}
    (h : conditionList cs = .ok conditions) :
    ∃ lead w, IsBlanks lead ∧ Joins conditions w ∧ cs = lead ++ w := by
  fun_induction conditionList cs generalizing conditions with
  | case1 cs refusal hc => cases h
  | case2 cs c rest hc hrest =>
    cases h
    obtain ⟨lead, w, hlead, hw, rfl, -⟩ := condition_eq_ok.1 hc
    obtain ⟨gap, hgap, happend, -⟩ := exists_blanks rest
    rw [hrest, List.append_nil] at happend
    exact ⟨lead, w ++ rest, hlead, .last hw (happend ▸ hgap), rfl⟩
  | case3 cs c rest hc hne hk => cases h
  | case4 cs c rest hc hne next hk ih =>
    cases hnext : conditionList next with
    | error refusal => simp [hnext] at h
    | ok others =>
      rw [hnext] at h
      cases h
      obtain ⟨lead, w, hlead, hw, rfl, hends⟩ := condition_eq_ok.1 hc
      obtain ⟨gap, hgap, happend, -⟩ := exists_blanks rest
      obtain ⟨word, hword, hskip, hstop⟩ := keyword?_eq_some.1 hk
      obtain ⟨gap', v, hgap', hothers, rfl⟩ := ih hnext
      rw [hskip] at happend
      have happart : c.op = .present → gap ≠ [] := by
        rintro hop rfl
        exact hword.not_stops rfl rfl (happend ▸ hw.stops_of_ends hop hends)
      have happart' : gap' ≠ [] := by
        rintro rfl
        obtain ⟨tag, v, htag, rfl⟩ := hothers.exists_tag
        exact htag.not_stops v hstop
      refine ⟨lead, _, hlead, .more hw hgap happart hword hgap' happart' hothers, ?_⟩
      simp [happend]

theorem conditionList_of_joins {conditions : List Condition} {lead w : List Char}
    (hlead : IsBlanks lead) (h : Joins conditions w) :
    conditionList (lead ++ w) = .ok conditions := by
  induction h generalizing lead with
  | @last c w gap hw hgap =>
    have hgap' : ∀ {p : Char → Bool}, blanks.all (!p ·) = true → Stops p gap := by
      intro p hp
      have hend : gap = [] → Stops p [] := fun _ => stops_nil
      simpa using hgap.stops hp hend
    have hends : c.Ends gap := hw.ends (fun _ => hgap' (by decide)) (hgap' (by decide))
    have hrest : skipBlanks gap = [] := by simpa using skipBlanks_append hgap stops_nil
    exact conditionList_last (condition_eq_ok.2 ⟨lead, w, hlead, hw, rfl, hends⟩) hrest
  | @more c others w gap word gap' v hw hgap happart hword hgap' happart' hothers ih =>
    simp only [List.append_assoc]
    obtain ⟨hblank, hnumber⟩ := hword.stops rfl rfl (gap' ++ v)
    have hends : c.Ends (gap ++ (word ++ (gap' ++ v))) :=
      hw.ends (fun hop => hgap.stops (by decide) fun hnil => absurd hnil (happart hop))
        (hgap.stops (by decide) fun _ => hnumber)
    have hstop : Stops isTagChar (gap' ++ v) :=
      hgap'.stops (by decide) fun hnil => absurd hnil happart'
    have hk : keyword? "AND" (skipBlanks (gap ++ (word ++ (gap' ++ v)))) = some (gap' ++ v) := by
      rw [skipBlanks_append hgap hblank]
      exact keyword?_eq_some.2 ⟨word, hword, rfl, hstop⟩
    rw [conditionList_more (condition_eq_ok.2 ⟨lead, w, hlead, hw, rfl, hends⟩) hk, ih hgap']
    rfl

/-- **The reader follows the grammar**: it reads a query from a text exactly if the text writes the
query. The two directions are those of a conjunction, once the blanks at both ends are taken off. -/
theorem parse_eq_ok {source : String} {q : Query} : parse source = .ok q ↔ q.WrittenAs source := by
  unfold parse
  constructor
  · intro h
    split at h
    · rename_i conditions hread
      cases h
      exact joins_of_conditionList hread
    · cases h
  · rintro ⟨lead, w, hlead, hjoins, hsource⟩
    rw [hsource, conditionList_of_joins hlead hjoins]

/-- A text either writes exactly one query, which is the one that is read from it, with its texts
and numbers as they stand there; or it writes none, and is refused as malformed. -/
theorem parse_accepts_grammar (source : String) :
    (∃ q, parse source = .ok q ∧ ∀ q' : Query, q'.WrittenAs source ↔ q' = q) ∨
    (∃ reason, parse source = .error (.query reason)) ∧ ∀ q : Query, ¬ q.WrittenAs source := by
  cases h : parse source with
  | ok q =>
    refine .inl ⟨q, rfl, fun q' => ?_⟩
    rw [← parse_eq_ok, h, Except.ok.injEq]
    exact eq_comm
  | error failure =>
    refine .inr ⟨?_, fun q hq => ?_⟩
    · unfold parse at h
      split at h <;> cases h
      exact ⟨_, rfl⟩
    · rw [← parse_eq_ok, h] at hq
      cases hq

end Query
end TxIndex
