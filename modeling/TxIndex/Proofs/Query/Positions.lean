import TxIndex.Proofs.Query.Simulation

/-! # The places of a scan

Scanning a query byte by byte is safe: it always comes to an end, it stands between characters only,
it never goes back, each condition begins behind the one before, and it says what the reader of
characters says, with the place at which it stopped as the offset of an error
(`Query.scan_safe`). For this every part of the scanner is shown to follow the reader of that
part.

The parts come in the order of the grammar: keywords, comparisons, arguments, conditions. For each
there is a reader of characters, which is either that of the grammar or one put together from it,
and a lemma that the scanner follows it. Only the conjunction is an induction, on the characters
that are left: a round in which nothing is taken off would be one in which no condition was read
(`Query.run_round`). -/
namespace TxIndex
namespace Query

open Utf8 (bytesOf Cut)

variable {source : String} {c : Cursor} {cs rest w : List Char}

/-! ## Keywords -/

theorem toNat_lt_of_toUpper {c : Char} (h : c.toUpper.toNat < 0x80) : c.toNat < 0x80 := by
  unfold Char.toUpper at h
  split at h
  · rename_i hlower
    exact Nat.lt_of_le_of_lt (toNat_le_of_le hlower.2) (by decide)
  · exact h

theorem AllAscii.length_bytesOf (h : AllAscii cs) : (bytesOf cs).length = cs.length := by
  rw [allAscii_iff] at h
  induction cs with
  | nil => rfl
  | cons c cs ih =>
    rw [List.forall_mem_cons] at h
    simp [Utf8.utf8EncodeChar_ascii h.1, ih h.2]

/-- A word of letters of one byte has as many bytes in either case. -/
theorem Spells.length_bytesOf {word : String} (hw : Spells word w) (hword : AllAscii word.toList) :
    (bytesOf w).length = word.utf8ByteSize := by
  have hsmall : AllAscii w := allAscii_iff.2 fun c hc => by
    refine toNat_lt_of_toUpper (allAscii_iff.1 hword _ ?_)
    rw [← hw]
    exact List.mem_map_of_mem hc
  rw [hsmall.length_bytesOf, hw.length_eq, ← Utf8.length_encode, Utf8.encode_eq_bytesOf,
    hword.length_bytesOf, String.length_toList]

/-- A keyword is found by slicing as many bytes as it has off what is left. -/
theorem keyword?_eq_some_iff_slice {word : String} (hword : AllAscii word.toList) :
    keyword? word cs = some rest ↔ ∃ head,
      Utf8.slice (String.ofList cs) 0 word.utf8ByteSize = some head ∧ Spells word head.toList ∧
      ¬ (bytesOf cs)[word.utf8ByteSize]?.any (onByte isTagChar) ∧ cs = head.toList ++ rest := by
  have hstart := Utf8.cut_zero_ofList cs
  have hstops : ∀ {rest : List Char}, Cut (String.ofList cs) word.utf8ByteSize rest →
      (¬ (bytesOf cs)[word.utf8ByteSize]?.any (onByte isTagChar) ↔ Stops isTagChar rest) := by
    intro rest hcut
    have hbyte := hcut.getElem?_eq
    rw [Utf8.encode_ofList] at hbyte
    rw [hbyte, any_onByte isAscii_isTagChar, not_any_head?_iff]
  rw [keyword?_eq_some]
  constructor
  · rintro ⟨w, hw, rfl, hstop⟩
    have hend := hstart.advance
    rw [Nat.zero_add, hw.length_bytesOf hword] at hend
    refine ⟨String.ofList w, hstart.slice hend, ?_, (hstops hend).2 hstop, ?_⟩
    · rwa [String.toList_ofList]
    · rw [String.toList_ofList]
  · rintro ⟨head, hslice, hspells, hstop, hcs⟩
    obtain ⟨rest', hrest', hend⟩ := hstart.of_slice hslice
    obtain rfl : rest = rest' := List.append_cancel_left (hcs.symm.trans hrest')
    exact ⟨head.toList, hspells, hcs, (hstops hend).1 hstop⟩

/-- What the reader says of a keyword. -/
def readKeyword (word : String) : Reader Bool := fun cs =>
  match keyword? word cs with
  | some rest => .ok (true, rest)
  | none => .ok (false, cs)

theorem follows_keyword (word : String) (hword : AllAscii word.toList) :
    Follows source (Scan.keyword source word) (readKeyword word) := by
  intro c cs hs
  cases hk : keyword? word cs with
  | some rest =>
    obtain ⟨head, hslice, hspells, hstop, rfl⟩ := (keyword?_eq_some_iff_slice hword).1 hk
    have hlength := hspells.length_bytesOf hword
    refine ⟨.ok true, _, rest, ?_, hs.moveTo (congrArg (c.pos + ·) hlength.symm), rfl, ?_⟩
    · simp only [Scan.keyword, run_bind, run_rest hs.cut, Option.bind_some, hslice,
        Utf8.encode_ofList]
      rw [if_pos ⟨hspells, hstop⟩]
      rfl
    · rw [readKeyword, hk]
      rfl
  | none =>
    refine ⟨.ok false, c, cs, ?_, hs, rfl, ?_⟩
    · simp only [Scan.keyword, run_bind, run_rest hs.cut, Option.bind_some, Utf8.encode_ofList]
      cases hslice : Utf8.slice (String.ofList cs) 0 word.utf8ByteSize with
      | none => rfl
      | some head =>
        obtain ⟨rest, hcs, -⟩ := (Utf8.cut_zero_ofList cs).of_slice hslice
        have hno : ¬ (head.toList.map Char.toUpper = word.toList ∧
            ¬ (bytesOf cs)[word.utf8ByteSize]?.any (onByte isTagChar)) := by
          rintro ⟨hspells, hstop⟩
          have := (keyword?_eq_some_iff_slice hword).2 ⟨head, hslice, hspells, hstop, hcs⟩
          rw [hk] at this
          cases this
        simp only
        rw [if_neg hno]
        rfl
    · rw [readKeyword, hk]
      rfl

/-! ## Comparisons -/

/-- What the reader says of the first of some comparisons. -/
def readAmong (os : List Comparison) : Reader Comparison := fun cs =>
  match os.find? fun o => o.symbol.toList.isPrefixOf cs with
  | some o => .ok (o, cs.drop o.symbol.length)
  | none => .error ⟨.expectedOperator, cs⟩

theorem follows_comparisonAmong (os : List Comparison) :
    Follows source (Scan.comparisonAmong source os) (readAmong os) := by
  induction os with
  | nil => exact Follows.throw .expectedOperator
  | cons o os ih =>
    intro c cs hs
    rw [Scan.comparisonAmong, run_bind, run_sees hs.cut, readAmong, Option.bind_some,
      List.find?_cons]
    cases hsees : o.symbol.toList.isPrefixOf cs with
    | true =>
      obtain ⟨rest, rfl⟩ := List.isPrefixOf_iff_prefix.1 hsees
      have hlength : (bytesOf o.symbol.toList).length = o.symbol.utf8ByteSize := by
        rw [← Utf8.encode_eq_bytesOf, Utf8.length_encode]
      refine ⟨.ok o, _, rest, rfl, hs.moveTo (congrArg (c.pos + ·) hlength.symm), rfl, ?_⟩
      simp only [report, ← String.length_toList, List.drop_left]
    | false => exact ih hs

/-- The comparison that is read is the first one whose symbol stands in front. -/
theorem comparison?_eq_find (cs : List Char) :
    comparison? cs = ([.le, .ge, .lt, .gt, .eq].find? fun o : Comparison =>
      o.symbol.toList.isPrefixOf cs).map fun o => (o, cs.drop o.symbol.length) := by
  have hlonger : ∀ {a : Char} {rest : List Char}, (∀ r, rest = '=' :: r → False) →
      [a, '='].isPrefixOf (a :: rest) = false := by
    intro a rest hne
    rw [Bool.eq_false_iff, ne_eq, List.isPrefixOf_iff_prefix]
    rintro ⟨r, hr⟩
    exact hne r (List.cons.inj hr).2.symm
  unfold comparison?
  split
  case h_3 rest hne =>
    have hle : Comparison.le.symbol.toList.isPrefixOf ('<' :: rest) = false := hlonger hne
    rw [List.find?_cons, hle]
    rfl
  case h_4 _ rest hne =>
    have hle : Comparison.le.symbol.toList.isPrefixOf ('>' :: rest) = false := rfl
    have hge : Comparison.ge.symbol.toList.isPrefixOf ('>' :: rest) = false := hlonger hne
    simp only [List.find?_cons, hle, hge]
    rfl
  case h_6 hle hge hlt hgt heq =>
    rw [List.find?_eq_none.2]
    · rfl
    intro o ho hpre
    obtain ⟨r, rfl⟩ := List.isPrefixOf_iff_prefix.1 hpre
    cases o
    · exact heq _ rfl
    · exact hlt _ rfl
    · exact hlt _ rfl
    · exact hgt _ rfl
    · exact hgt _ rfl
  all_goals rfl

/-- What the reader says of a comparison. -/
def readComparison : Reader Comparison := fun cs =>
  match comparison? cs with
  | some r => .ok r
  | none => .error ⟨.expectedOperator, cs⟩

theorem follows_comparison : Follows source (Scan.comparison source) readComparison := by
  refine (follows_comparisonAmong _).congr fun cs => ?_
  rw [readComparison, comparison?_eq_find, readAmong]
  generalize List.find? _ _ = found
  cases found <;> rfl

/-! ## Arguments -/

theorem utf8EncodeChar_apostrophe : String.utf8EncodeChar apostrophe = [0x27] := by decide

theorem findIdx?_bytesOf_eq_none (hw : apostrophe ∉ w) :
    (bytesOf w).findIdx? (· = 0x27) = none := by
  rw [List.findIdx?_eq_none_iff]
  intro b hb
  exact decide_eq_false (ne_of_mem_bytesOf hw b hb)

/-- The first apostrophe is found by its byte. -/
theorem findIdx?_bytesOf (hw : apostrophe ∉ w) :
    (bytesOf (w ++ apostrophe :: rest)).findIdx? (· = 0x27) = some (bytesOf w).length := by
  have hnone : (bytesOf w).findIdx? (· = 0x27) = none := findIdx?_bytesOf_eq_none hw
  rw [Utf8.bytesOf_append, Utf8.bytesOf_cons, utf8EncodeChar_apostrophe, List.findIdx?_append,
    hnone, List.singleton_append, List.findIdx?_cons]
  simp

theorem argument_unterminated {tail : List Char} (h : apostrophe ∉ tail) :
    argument (apostrophe :: tail) = .error ⟨.unterminatedText, apostrophe :: tail⟩ := by
  have hdrop : tail.dropWhile (· ≠ apostrophe) = [] := by
    rw [List.dropWhile_eq_nil_iff]
    intro c hc
    exact decide_eq_true fun heq => h (heq ▸ hc)
  simp only [argument, List.head?_cons, if_true, List.tail_cons, hdrop]

theorem follows_number : Follows source (do
      let literal ← Scan.takeWhile source isNumberChar
      match Literal.parse? literal with
      | none => throw .expectedValue
      | some n => return Argument.number n)
    fun cs => match Literal.parse? (String.ofList (cs.takeWhile isNumberChar)) with
      | none => .error ⟨.expectedValue, cs.dropWhile isNumberChar⟩
      | some n => .ok (.number n, cs.dropWhile isNumberChar) := by
  refine (follows_takeWhile isAscii_isNumberChar).bind (fun literal cs =>
    match Literal.parse? literal with
    | none => .error ⟨.expectedValue, cs⟩
    | some n => .ok (Argument.number n, cs)) fun literal => ?_
  cases Literal.parse? literal with
  | none => exact Follows.throw _
  | some n => exact Follows.pure _

theorem isPrefixOf_apostrophe (cs : List Char) :
    "'".toList.isPrefixOf cs = decide (cs.head? = some apostrophe) := by
  cases cs with
  | nil => rfl
  | cons a cs =>
    change [apostrophe].isPrefixOf (a :: cs) = _
    rw [Bool.eq_iff_iff, List.isPrefixOf_iff_prefix, List.cons_prefix_cons]
    simp [eq_comm]

theorem follows_argument : Follows source (Scan.argument source) argument := by
  intro c cs hs
  rw [Scan.argument, run_bind, run_sees hs.cut, Option.bind_some, isPrefixOf_apostrophe]
  by_cases hhead : cs.head? = some apostrophe
  · obtain ⟨tail, rfl⟩ := List.head?_eq_some_iff.1 hhead
    have hstart : Cut source (c.pos + 1) tail := Cut.advance (w := [apostrophe]) hs.cut
    simp only [hhead, decide_true, if_true, run_bind, run_here, Option.bind_some,
      hstart.slice_end, run_slice, Utf8.encode_ofList]
    by_cases hmem : apostrophe ∈ tail
    · obtain ⟨w, rest, rfl, hplain⟩ := List.eq_append_cons_of_mem hmem
      have hread : argument (apostrophe :: (w ++ apostrophe :: rest)) =
          .ok (.text (String.ofList w), rest) :=
        argument_eq_ok.2 ⟨_, .text hplain, by simp, trivial⟩
      have hend := hstart.advance
      rw [findIdx?_bytesOf hplain]
      simp only [run_bind, run_moveTo, Option.bind_some, hstart.slice hend, run_slice, run_pure]
      refine ⟨_, _, rest, rfl, Stands.moveTo (w := apostrophe :: (w ++ [apostrophe])) ?_ ?_, rfl,
        hread⟩
      · simpa using hs
      · simp only [List.cons_append, Utf8.bytesOf_cons, Utf8.bytesOf_append, Utf8.bytesOf_nil,
          utf8EncodeChar_apostrophe, List.length_append, List.length_cons, List.length_nil]
        omega
    · refine ⟨.error .unterminatedText, c, _, ?_, hs, rfl, argument_unterminated hmem⟩
      rw [findIdx?_bytesOf_eq_none hmem]
      rfl
  · simp only [hhead, decide_false, argument, if_false]
    exact follows_number hs

/-! ## Conditions -/

/-- What the reader says of an argument that must be a text. -/
def readContaining (tag : String) : Argument → Reader Condition
  | .text needle, rest => .ok (Condition.contains tag needle, rest)
  | .number _, rest => .error ⟨.containsNeedsText, rest⟩

theorem follows_containing (tag : String) (arg : Argument) :
    Follows source (Scan.containing tag arg) (readContaining tag arg) := by
  cases arg with
  | text needle => exact Follows.pure _
  | number n => exact Follows.throw _

theorem follows_test (tag : String) : Follows source (Scan.test source tag) (test tag) := by
  have hcontains : Follows source (do
        Scan.skipBlanks source
        let arg ← Scan.argument source
        Scan.containing tag arg)
      fun cs => argument (skipBlanks cs) >>= fun r => readContaining tag r.1 r.2 :=
    follows_skipBlanks.bind (fun _ _ => _) fun _ =>
      follows_argument.bind (readContaining tag) (follows_containing tag)
  have hcompare : Follows source (do
        let o ← Scan.comparison source
        Scan.skipBlanks source
        let arg ← Scan.argument source
        return Condition.compare o tag arg)
      fun cs => readComparison cs >>= fun o => argument (skipBlanks o.2) >>= fun arg =>
        .ok (Condition.compare o.1 tag arg.1, arg.2) :=
    follows_comparison.bind (fun _ _ => _) fun o => follows_skipBlanks.bind (fun _ _ => _) fun _ =>
      follows_argument.bind (fun arg cs => .ok (Condition.compare o tag arg, cs)) fun _ =>
        Follows.pure _
  have htest := (follows_keyword "EXISTS" (by decide)).bind
    (fun found cs => if found then .ok (Condition.present tag, cs) else _) fun _ =>
      Follows.ite (Follows.pure _) <|
        (follows_keyword "CONTAINS" (by decide)).bind (fun found _ => if found then _ else _)
          fun _ => Follows.ite hcontains hcompare
  refine htest.congr fun cs => ?_
  simp only [readKeyword, test]
  cases hexists : keyword? "EXISTS" cs with
  | some rest => rfl
  | none =>
    cases hcont : keyword? "CONTAINS" cs with
    | some rest =>
      simp only [bind, Except.bind, hcont]
      cases argument (skipBlanks rest) with
      | error refusal => rfl
      | ok r => obtain ⟨_ | _, _⟩ := r <;> rfl
    | none =>
      simp only [bind, Except.bind, hcont, readComparison]
      cases comparison? cs <;> rfl

theorem follows_condition : Follows source (Scan.condition source) condition := by
  refine (follows_skipBlanks.bind (fun _ cs => _) fun _ =>
    (follows_takeWhile isAscii_isTagChar).bind (fun tag cs => if tag = "" then _ else _) fun tag =>
      Follows.ite (Follows.throw .expectedTag) <|
        follows_skipBlanks.bind (fun _ => test tag) fun _ => follows_test tag).congr fun cs => ?_
  have hempty : ∀ tag : List Char, String.ofList tag = "" ↔ tag = [] := fun tag => by
    rw [← String.toList_inj, String.toList_ofList]
    rfl
  simp only [bind, Except.bind, condition, hempty]

/-! ## Conjunctions -/

/-- Behind a condition and blanks a scan ends, goes on or stops. -/
theorem run_round {a : Condition} (hs : Stands source c cs) (h : condition cs = .ok (a, rest)) :
    ∃ c', (∀ n, (Scan.conditions source (n + 1)).run.run c = ((do
        if skipBlanks rest = [] then return [a]
        else if ← Scan.keyword source "AND" then
          let others ← Scan.conditions source n
          return a :: others
        else throw .expectedAnd) : Scan (List Condition)).run.run c') ∧
      Stands source c' (skipBlanks rest) ∧ c'.rounds = c.pos :: c.rounds := by
  obtain ⟨answer, c₁, rest₁, hrun₁, hs₁, hrounds₁, hread₁⟩ := follows_condition hs.beginRound
  obtain ⟨rfl, rfl⟩ := report_eq_ok.1 (h.symm.trans hread₁)
  obtain ⟨answer, c₂, rest₂, hrun₂, hs₂, hrounds₂, hread₂⟩ := follows_skipBlanks hs₁
  obtain ⟨rfl, rfl⟩ := report_eq_ok.1 hread₂
  refine ⟨c₂, fun n => ?_, hs₂, hrounds₂.trans hrounds₁⟩
  simp only [Scan.conditions, run_bind, run_beginRound, Option.bind_some, hrun₁, hrun₂,
    run_atEnd hs₂.cut, decide_eq_true_eq]

/-- A scan of a conjunction answers as the reader does, and begins every round behind the last; so
it needs no more rounds than there are characters, and makes as many as it reads conditions. -/
theorem run_conditions (hs : Stands source c cs) (hbegun : (c.pos :: c.rounds).Pairwise (· > ·)) :
    ∃ answer c' rest,
      (∀ n, cs.length ≤ n → (Scan.conditions source (n + 1)).run.run c = some (answer, c')) ∧
      Stands source c' rest ∧ c'.rounds.Pairwise (· > ·) ∧
      (∀ conditions, answer = .ok conditions →
        c'.rounds.length = c.rounds.length + conditions.length) ∧
      conditionList cs = (report answer rest).map Prod.fst := by
  fun_induction conditionList cs generalizing c with
  | case1 cs refusal hc =>
    obtain ⟨answer, c₁, rest₁, hrun₁, hs₁, hrounds₁, hread₁⟩ := follows_condition hs.beginRound
    obtain ⟨fault, rfl, rfl⟩ := report_eq_error.1 (hc.symm.trans hread₁)
    refine ⟨.error fault, c₁, rest₁, fun n _ => ?_, hs₁, hrounds₁ ▸ hbegun,
      nofun, rfl⟩
    simp only [Scan.conditions, run_bind, run_beginRound, Option.bind_some, hrun₁]
  | case2 cs a rest hc hrest =>
    obtain ⟨c₁, hrun₁, hs₁, hrounds₁⟩ := run_round hs hc
    refine ⟨.ok [a], c₁, _, fun n _ => ?_, hs₁, hrounds₁ ▸ hbegun, ?_, rfl⟩
    · rw [hrun₁, if_pos hrest, run_pure]
    · rintro _ ⟨⟩
      rw [hrounds₁]
      rfl
  | case3 cs a rest hc hne hk =>
    obtain ⟨c₁, hrun₁, hs₁, hrounds₁⟩ := run_round hs hc
    obtain ⟨answer, c₂, rest₂, hrun₂, hs₂, hrounds₂, hread₂⟩ :=
      follows_keyword "AND" (by decide) hs₁
    rw [readKeyword, hk] at hread₂
    obtain ⟨rfl, rfl⟩ := report_eq_ok.1 hread₂
    refine ⟨.error .expectedAnd, c₂, _, fun n _ => ?_, hs₂,
      (hrounds₂.trans hrounds₁) ▸ hbegun, nofun, rfl⟩
    rw [hrun₁, if_neg hne, run_bind, hrun₂]
    rfl
  | case4 cs a rest hc hne next hk ih =>
    have hshorter : next.length < cs.length := by
      have hkeyword := length_keyword? hk
      have hblanks := length_skipBlanks_le rest
      have hcondition := length_condition hc
      omega
    obtain ⟨c₁, hrun₁, hs₁, hrounds₁⟩ := run_round hs hc
    obtain ⟨answer, c₂, rest₂, hrun₂, hs₂, hrounds₂, hread₂⟩ :=
      follows_keyword "AND" (by decide) hs₁
    rw [readKeyword, hk] at hread₂
    obtain ⟨rfl, rfl⟩ := report_eq_ok.1 hread₂
    have hfurther : c.pos < c₂.pos := hs.cut.lt_of_length_lt hs₂.cut hshorter
    have hbegun₂ : (c₂.pos :: c₂.rounds).Pairwise (· > ·) := by
      rw [hrounds₂, hrounds₁]
      refine List.pairwise_cons.2 ⟨List.forall_mem_cons.2 ⟨hfurther, fun r hr => ?_⟩, hbegun⟩
      exact Nat.lt_trans ((List.pairwise_cons.1 hbegun).1 r hr) hfurther
    obtain ⟨answer, c₃, rest₃, hrun₃, hs₃, hrounds₃, hcount₃, hread₃⟩ := ih hs₂ hbegun₂
    refine ⟨(a :: ·) <$> answer, c₃, rest₃, fun n hn => ?_, hs₃, hrounds₃, ?_, ?_⟩
    · obtain ⟨n, rfl⟩ := Nat.exists_eq_succ_of_ne_zero (n := n) (by omega)
      rw [hrun₁, if_neg hne, run_bind, hrun₂]
      simp only [Option.bind_some, if_true, run_bind, hrun₃ n (by omega)]
      cases answer <;> rfl
    · intro conditions hanswer
      cases answer with
      | error fault => cases hanswer
      | ok others =>
        cases hanswer
        rw [hcount₃ others rfl, hrounds₂, hrounds₁, List.length_cons, List.length_cons]
        omega
    · rw [hread₃]
      cases answer <;> rfl

/-! ## Safety -/

/-- The cursor has stood only where a scan of the source may stand. -/
structure Cursor.Safe (source : String) (c : Cursor) : Prop where
  /-- No place is past the end. -/
  le_size : ∀ p ∈ c.trail, p ≤ source.utf8ByteSize
  /-- No place is inside a character. -/
  isValid : ∀ p ∈ c.trail, (⟨p⟩ : String.Pos.Raw).IsValid source
  /-- The first place is the start of the source. -/
  from_start : c.trail.getLast? = some 0
  /-- No place is before an earlier one. -/
  forward : c.trail.Pairwise (· ≥ ·)
  /-- Every round begins behind the last, -/
  progress : c.rounds.Pairwise (· > ·)
  /-- at a place where the cursor stood. -/
  rounds_subset : c.rounds ⊆ c.trail

theorem Stands.safe (h : Stands source c cs) (hrounds : c.rounds.Pairwise (· > ·)) :
    c.Safe source := by
  have hcut : ∀ p ∈ c.trail, ∃ rest, Cut source p rest :=
    List.forall_mem_cons.2 ⟨⟨cs, h.cut⟩, h.past_cut⟩
  refine ⟨fun p hp => ?_, fun p hp => ?_, h.from_start, h.ordered, hrounds, h.logged⟩
  · obtain ⟨rest, hrest⟩ := hcut p hp
    exact hrest.le_size
  · obtain ⟨rest, hrest⟩ := hcut p hp
    exact hrest.isValid

/-- The number of bytes before the rest is the place of the cut. -/
theorem Refusal.offset_eq {pos : Nat} (h : Cut source pos rest) (fault : Fault) :
    (⟨fault, rest⟩ : Refusal).offset source = pos := by
  have hlength := h.length_eq
  rw [Refusal.offset, ← Utf8.length_encode (String.ofList rest), Utf8.encode_ofList]
  omega

/-- **Scanning a query byte by byte is safe.** A scan of any source has a result, the same however
many rounds it may make beyond the number of characters: so every slice is taken between characters,
and the loops end. All its places are places between characters, in order, and each round of
conditions begins behind the last. It answers what the reader answers: as many conditions as there
were rounds, or an error whose offset is the place at which the scan stopped. -/
theorem scan_safe (source : String) : ∃ answer c,
    (∀ rounds, source.length < rounds → scan source rounds = some (answer, c)) ∧ c.Safe source ∧
    match answer with
    | .ok conditions => parse source = .ok ⟨conditions⟩ ∧ c.rounds.length = conditions.length
    | .error fault => parse source = .error (.query
        s!"{fault.message} at offset {c.pos} in {Text.quoted source}") := by
  have hstart : Stands source ⟨0, [], []⟩ source.toList :=
    { cut := Utf8.cut_zero source
      past_cut := List.forall_mem_nil _
      from_start := rfl
      ordered := List.pairwise_singleton _ _
      logged := List.forall_mem_nil _ }
  obtain ⟨answer, c, rest, hrun, hstands, hrounds, hcount, hread⟩ :=
    run_conditions hstart (List.pairwise_singleton _ _)
  rw [String.length_toList] at hrun
  refine ⟨answer, c, fun rounds hlt => ?_, hstands.safe hrounds, ?_⟩
  · obtain ⟨n, rfl⟩ := Nat.exists_eq_succ_of_ne_zero (Nat.ne_zero_of_lt hlt)
    exact hrun n (Nat.le_of_lt_succ hlt)
  rw [parse, hread]
  cases answer with
  | ok conditions =>
    refine ⟨rfl, ?_⟩
    rw [hcount conditions rfl]
    exact Nat.zero_add _
  | error fault =>
    have hoffset := Refusal.offset_eq hstands.cut fault
    simp only [report, Except.map, Refusal.describe, hoffset]

-- As many bytes as the word has end inside a character: the word is not there, and nothing is lost.
example : (scan "a EXISTé" 9).map (·.2.trail) = some [2, 1, 0] := by rfl

end Query
end TxIndex
