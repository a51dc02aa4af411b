import TxIndex.Proofs.Search.Compilation
import TxIndex.Proofs.Sql.Placeholders

/-! # Statements and their plans

A compiled plan spelled out as a statement with the arguments in place: the heights in the
comparisons of the window, and of each condition the tag where the composite key is compared and the
argument in the condition's own predicate. There is a predicate for each operator and kind of
argument (`Condition.Asks`), and none for a condition without the argument of its operator. The
statement that a plan is rendered as is read as the plan spelled out, its placeholders numbered in
their order (`Plan.render_aligned`). -/
namespace TxIndex

open Sql

/-! ## Plans spelled out -/

namespace Dialect

/-- The value contains an argument. -/
def valueContains (d : Dialect) (a : Arg) : List Piece :=
  match d with
  | .postgres => fixed "strpos(a.value, " ++ .arg a :: fixed ") > 0"
  | .sqlite => fixed "instr(a.value, " ++ .arg a :: fixed ") > 0"

/-- An argument as a number. -/
def asNumber (d : Dialect) (a : Arg) : List Piece :=
  match d with
  | .postgres => fixed "CAST(" ++ .arg a :: fixed " AS NUMERIC)"
  | .sqlite => fixed "CAST(" ++ .arg a :: fixed " AS REAL)"

end Dialect

namespace Condition

/-- What a condition asks of the value, its argument in place. -/
inductive Asks (d : Dialect) : Condition → List Piece → Prop where
  | present (tag : String) (arg : Option Argument) : Asks d ⟨tag, .present, arg⟩ []
  | contains (tag : String) (arg : Argument) :
    Asks d ⟨tag, .contains, some arg⟩ (fixed " AND " ++ d.valueContains (.text arg.raw))
  | text (tag : String) (o : Comparison) (s : String) :
    Asks d ⟨tag, .compare o, some (.text s)⟩
      (fixed (" AND a.value " ++ o.symbol ++ " ") ++ [.arg (.text s)])
  | number (tag : String) (o : Comparison) (n : Literal) :
    Asks d ⟨tag, .compare o, some (.number n)⟩
      (fixed (" AND " ++ d.numericColumn "a.value" ++ (" " ++ o.symbol ++ " ")) ++
        d.asNumber (.text n.text))

/-- A condition in a statement. -/
inductive Spelled (d : Dialect) (c : Condition) : List Piece → Prop where
  | intro {asked : List Piece} (asks : c.Asks d asked) : Spelled d c
    (fixed ("EXISTS (SELECT 1 FROM events e JOIN attributes a ON a.event_id = e.rowid " ++
        "WHERE e.tx_id = c.tx_id AND a.composite_key = ") ++
      .arg (.text c.tag) :: (asked ++ fixed ")"))

/-- The texts that a condition speaks of: its tag, and the argument of its operator. -/
def operands (c : Condition) : List String :=
  c.tag :: if c.op = .present then [] else (c.arg.map Argument.raw).toList

end Condition

namespace HeightWindow

/-- A comparison of the height. -/
def compared (symbol : String) (height : Int64) : List Piece :=
  fixed ("tr.height " ++ symbol ++ " ") ++ [.arg (.int height)]

/-- A lower limit in a statement. -/
def above (b : Bound) : List Piece := compared (if b.inclusive then ">=" else ">") b.value

/-- An upper limit in a statement. -/
def below (b : Bound) : List Piece := compared (if b.inclusive then "<=" else "<") b.value

/-- A window in a statement, the tip of the chain being given. -/
inductive Spelled (tip : Option Int64) : HeightWindow → List Piece → Prop where
  | above (b : Bound) : Spelled tip (.range ⟨some b, none⟩) (above b)
  | below (b : Bound) : Spelled tip (.range ⟨none, some b⟩) (below b)
  | between (b b' : Bound) :
    Spelled tip (.range ⟨some b, some b'⟩) (HeightWindow.above b ++ fixed " AND " ++
      HeightWindow.below b')
  | exact (height : Int64) : Spelled tip (.exact height) (compared "=" height)
  | belowTip {height : Int64} (htip : tip = some height) :
    Spelled tip .belowTip (compared "<=" height)

/-- The heights that a window speaks of, the lower limit first. -/
def heights (tip : Option Int64) : HeightWindow → List Int64
  | .range r => (r.lower.toList ++ r.upper.toList).map Bound.value
  | .exact height => [height]
  | .belowTip => tip.toList

end HeightWindow

namespace Sql

/-- The statement up to its window. -/
def opening : String := String.intercalate "\n" [
  "WITH candidate_txs AS (",
  "    SELECT tr.rowid AS tx_id, tr.height",
  "    FROM tx_results tr",
  "    JOIN tx_requests req ON req.block_id = tr.block_id AND req.\"index\" = tr.\"index\"",
  "    WHERE "]

/-- The statement between its window and its conditions. -/
def middle : String := String.intercalate "\n" [
  "",
  "),",
  "matched_txs AS (",
  "    SELECT c.tx_id, c.height",
  "    FROM candidate_txs c",
  "    "]

/-- The statement after its conditions, up to the limit. -/
def order : String := String.intercalate "\n" [
  "",
  "    ORDER BY c.height DESC, c.tx_id DESC",
  "    LIMIT "]

/-- The statement after the limit. -/
def closing : String := String.intercalate "\n" [
  "",
  ")",
  "SELECT tr.height, req.created_at, tr.tx_hash, req.messages, req.memo, req.fee, tr.tx_result",
  "FROM matched_txs m",
  "JOIN tx_results tr ON tr.rowid = m.tx_id",
  "JOIN tx_requests req ON req.block_id = tr.block_id AND req.\"index\" = tr.\"index\"",
  "ORDER BY m.height DESC, m.tx_id DESC"]

/-- Conditions as a clause. -/
def spelledWhere (clauses : List (List Piece)) : List Piece :=
  if clauses.isEmpty then []
  else fixed "WHERE " ++ List.intercalate (fixed "\n      AND ") clauses

/-- A whole statement. -/
def spelledOut (heights : List Piece) (clauses : List (List Piece)) (limit : UInt16) :
    List Piece :=
  fixed opening ++ heights ++ fixed middle ++ spelledWhere clauses ++
    fixed (order ++ (toString limit ++ closing))

/-! ## Blocks of a statement -/

/-- Pieces that may follow anything in a statement: they are apart and do not begin with a digit. -/
structure Block (ps : List Piece) : Prop where
  apart : Apart ps
  head : ∀ p ∈ ps.head?, p.isDigit = false

variable {ps ps' : List Piece} {n : Nat}

theorem block_nil : Block [] := ⟨.nil, by simp⟩

theorem Block.append (h : Block ps) (h' : Block ps') : Block (ps ++ ps') where
  apart := List.isChain_append.2 ⟨h.apart, h'.apart, fun _ _ p' hp' _ => h'.head p' hp'⟩
  head p hp := by
    cases ps with
    | nil => exact h'.head p hp
    | cons q ps => exact h.head p hp

theorem Block.arg_cons (a : Arg) (h : Block ps) : Block (.arg a :: ps) where
  apart := by
    cases ps with
    | nil => exact .singleton _
    | cons p ps => exact List.isChain_cons_cons.2 ⟨fun _ => h.head p rfl, h.apart⟩
  head p hp := by
    obtain rfl : Piece.arg a = p := Option.some.inj hp
    rfl

theorem fixed_append (s t : String) : fixed (s ++ t) = fixed s ++ fixed t := by
  rw [fixed, String.toList_append, List.map_append]
  rfl

/-- A fixed text without dollar signs that does not begin with a digit is a block. -/
theorem block_fixed {s : String} (hdollar : '$' ∉ s.toList)
    (hhead : ∀ c ∈ s.toList.head?, c.isDigit = false) : Block (fixed s) where
  apart := by
    have hopens : ∀ p ∈ fixed s, ¬ p.opens = true := by
      intro p hp
      obtain ⟨c, hc, rfl⟩ := List.mem_map.1 hp
      simp only [Piece.opens, decide_eq_true_eq]
      rintro rfl
      exact hdollar hc
    exact (List.pairwise_of_forall_mem_list fun p hp _ _ h => absurd h (hopens p hp)).isChain
  head p hp := by
    rw [fixed, List.head?_map] at hp
    obtain ⟨c, hc, rfl⟩ := Option.map_eq_some_iff.1 hp
    exact hhead c hc

theorem fixed_ofList (cs : List Char) : fixed (String.ofList cs) = cs.map .char := by
  rw [fixed, String.toList_ofList]

/-- A literal text is known by its characters. -/
theorem block_ofList {cs : List Char} (hdollar : '$' ∉ cs)
    (hhead : cs.head?.any Char.isDigit = false) : Block (fixed (String.ofList cs)) := by
  apply block_fixed <;> rw [String.toList_ofList]
  · exact hdollar
  · exact (Option.any_eq_false _ _).1 hhead

theorem Block.intercalate {sep : List Piece} (hsep : Block sep) {clauses : List (List Piece)}
    (h : ∀ clause ∈ clauses, Block clause) : Block (sep.intercalate clauses) := by
  induction clauses with
  | nil => exact block_nil
  | cons clause clauses ih =>
    have hclause := h clause List.mem_cons_self
    have ih := ih fun clause' h' => h clause' (List.mem_cons_of_mem _ h')
    cases clauses with
    | nil => rwa [List.intercalate_singleton]
    | cons clause' clauses =>
      rw [List.intercalate_cons_cons]
      exact (hclause.append hsep).append ih

/-! ## The fixed parts of a statement -/

/-- What stands neither in the separator nor in any of the texts does not stand in the joined
text. -/
theorem not_mem_intercalate {sep : String} {c : Char} {lines : List String}
    (hsep : c ∉ sep.toList) (hlines : ∀ line ∈ lines, c ∉ line.toList) :
    c ∉ (sep.intercalate lines).toList := by
  induction lines with
  | nil => simp
  | cons line lines ih =>
    have hline := hlines line List.mem_cons_self
    have ih := ih fun l hl => hlines l (List.mem_cons_of_mem _ hl)
    cases lines with
    | nil => rwa [String.intercalate_singleton]
    | cons line' lines =>
      rw [String.intercalate_cons_cons, String.toList_append, String.toList_append,
        List.mem_append, List.mem_append]
      exact not_or.2 ⟨not_or.2 ⟨hline, hsep⟩, ih⟩

theorem not_mem_cons_ofList {c : Char} {cs : List Char} {lines : List String} (h : c ∉ cs)
    (hlines : ∀ line ∈ lines, c ∉ line.toList) :
    ∀ line ∈ String.ofList cs :: lines, c ∉ line.toList :=
  List.forall_mem_cons.2 ⟨by rwa [String.toList_ofList], hlines⟩

/-- Lines of which the first is empty begin with a line break. -/
theorem head?_lines (line : String) (lines : List String) :
    (String.intercalate "\n" ("" :: line :: lines)).toList.head? = some '\n' := by
  rw [String.intercalate_cons_cons, String.toList_append]
  rfl

theorem isDigit_head?_lines (line : String) (lines : List String) :
    ∀ c ∈ (String.intercalate "\n" ("" :: line :: lines)).toList.head?, c.isDigit = false := by
  rw [head?_lines]
  rintro c hc
  obtain rfl : '\n' = c := Option.some.inj hc
  rfl

theorem block_opening : Block (fixed opening) := by
  apply block_fixed
  · refine not_mem_intercalate (by decide) ?_
    iterate 5 refine not_mem_cons_ofList (by decide +kernel) ?_
    exact List.forall_mem_nil _
  · have hhead : opening.toList.head? = some 'W' := by
      rw [opening, String.intercalate_cons_cons, String.toList_append, String.toList_append]
      rfl
    rw [hhead]
    rintro c hc
    obtain rfl : 'W' = c := Option.some.inj hc
    rfl

theorem block_middle : Block (fixed middle) := by
  apply block_fixed
  · refine not_mem_intercalate (by decide) ?_
    iterate 6 refine not_mem_cons_ofList (by decide +kernel) ?_
    exact List.forall_mem_nil _
  · exact isDigit_head?_lines _ _

theorem block_closing (limit : UInt16) : Block (fixed (order ++ (toString limit ++ closing))) := by
  have horder : '$' ∉ order.toList := by
    refine not_mem_intercalate (by decide) ?_
    iterate 3 refine not_mem_cons_ofList (by decide +kernel) ?_
    exact List.forall_mem_nil _
  have hlimit : '$' ∉ (toString limit).toList := by
    intro h
    have hdigit : '$' ∈ Nat.toDigits 10 limit.toNat := Nat.toList_repr ▸ h
    exact absurd (Nat.isDigit_of_mem_toDigits (by decide) (by decide) hdigit) (by decide)
  have hclosing : '$' ∉ closing.toList := by
    refine not_mem_intercalate (by decide) ?_
    iterate 7 refine not_mem_cons_ofList (by decide +kernel) ?_
    exact List.forall_mem_nil _
  apply block_fixed
  · rw [String.toList_append, String.toList_append, List.mem_append, List.mem_append]
    exact not_or.2 ⟨horder, not_or.2 ⟨hlimit, hclosing⟩⟩
  · have hhead := isDigit_head?_lines "    ORDER BY c.height DESC, c.tx_id DESC" ["    LIMIT "]
    intro c hc
    rw [String.toList_append, List.head?_append] at hc
    exact hhead c (by simpa [order, head?_lines] using hc)

theorem dollar_not_mem_patternTest {expr : String} (h : '$' ∉ expr.toList) :
    '$' ∉ (Dialect.patternTest expr).toList := by
  simp [Dialect.patternTest, Dialect.leadPatterns, Dialect.refusedPatterns, h, toString,
    String.intercalate_cons_cons]

theorem block_numericColumn (d : Dialect) : Block (fixed (d.numericColumn "a.value")) := by
  have hwhen : Block (fixed "(CASE WHEN ") := block_ofList (by decide) (by decide)
  have hvalue : Block (fixed "a.value") := block_ofList (by decide) (by decide)
  cases d with
  | sqlite =>
    have htest : Block (fixed (Dialect.patternTest "a.value")) := by
      refine block_fixed (dollar_not_mem_patternTest (by decide)) ?_
      rw [Dialect.patternTest, String.append_assoc, String.append_assoc, String.toList_append]
      intro c hc
      obtain rfl : '(' = c := Option.some.inj hc
      rfl
    have hthen : Block (fixed " THEN CAST(") := block_ofList (by decide) (by decide)
    have hend : Block (fixed " AS REAL) END)") := block_ofList (by decide) (by decide)
    have hcolumn : Dialect.numericColumn .sqlite "a.value" = "(CASE WHEN " ++
      Dialect.patternTest "a.value" ++ " THEN CAST(" ++ "a.value" ++ " AS REAL) END)" := rfl
    rw [hcolumn]
    simp only [fixed_append]
    exact (((hwhen.append htest).append hthen).append hvalue).append hend
  | postgres =>
    -- The dollar sign that ends the regular expression has a quote behind it.
    have hregex : Block (fixed " ~ '^-?[0-9]+(\\.[0-9]+)?$' THEN CAST(") := by
      refine ⟨?_, by decide⟩
      rw [fixed_ofList]
      unfold Apart
      decide +kernel
    have hend : Block (fixed " AS NUMERIC) END)") := block_ofList (by decide) (by decide)
    have hcolumn : Dialect.numericColumn .postgres "a.value" = "(CASE WHEN " ++ "a.value" ++
      " ~ '^-?[0-9]+(\\.[0-9]+)?$' THEN CAST(" ++ "a.value" ++ " AS NUMERIC) END)" := rfl
    rw [hcolumn]
    simp only [fixed_append]
    exact (((hwhen.append hvalue).append hregex).append hvalue).append hend

/-! ## Plans as statements -/

theorem written_arg (n : Nat) (a : Arg) (ps : List Piece) :
    written n (.arg a :: ps) = (placeholder n).toList ++ written (n + 1) ps := by
  rw [placeholder_toList]
  rfl

theorem argsOf_arg (a : Arg) (ps : List Piece) : argsOf (.arg a :: ps) = a :: argsOf ps := rfl

/-- An argument between fixed texts. -/
theorem written_between (n : Nat) (s t : String) (a : Arg) :
    written n (fixed s ++ .arg a :: fixed t) = (s ++ placeholder n ++ t).toList := by
  rw [written_append, written_fixed, argsOf_fixed, written_arg, written_fixed,
    String.toList_append, String.toList_append, List.append_assoc]
  rfl

theorem argsOf_between (s t : String) (a : Arg) : argsOf (fixed s ++ .arg a :: fixed t) = [a] := by
  rw [argsOf_append, argsOf_fixed, argsOf_arg, argsOf_fixed]
  rfl

section Dialect

variable (d : Dialect) (a : Arg)

theorem block_valueContains : Block (d.valueContains a) := by
  cases d <;>
    exact (block_ofList (by decide) (by decide)).append
      (.arg_cons a (block_ofList (by decide) (by decide)))

theorem argsOf_valueContains : argsOf (d.valueContains a) = [a] := by
  cases d <;> exact argsOf_between _ _ a

theorem written_valueContains (n : Nat) :
    written n (d.valueContains a) = (d.contains "a.value" (placeholder n)).toList := by
  cases d <;> exact written_between n _ _ a

theorem block_asNumber : Block (d.asNumber a) := by
  cases d <;>
    exact (block_ofList (by decide) (by decide)).append
      (.arg_cons a (block_ofList (by decide) (by decide)))

theorem argsOf_asNumber : argsOf (d.asNumber a) = [a] := by
  cases d <;> exact argsOf_between _ _ a

theorem written_asNumber (n : Nat) :
    written n (d.asNumber a) = (d.numericParam (placeholder n)).toList := by
  cases d <;> exact written_between n _ _ a

end Dialect

theorem block_symbol (o : Comparison) : Block (fixed o.symbol) := by
  cases o <;> exact block_ofList (by decide) (by decide)

/-- A condition with the argument of its operator is rendered as what it asks. -/
theorem exists_asks (d : Dialect) {c : Condition} (h : Plan.lacksArgument c = false) :
    ∃ asked, c.Asks d asked ∧ Block asked ∧ argsOf asked = testArgs c.test ∧
      ∀ n, written n asked = (predicate d n c.test).toList := by
  have hand : Block (fixed " AND ") := block_ofList (by decide) (by decide)
  have hspace : Block (fixed " ") := block_ofList (by decide) (by decide)
  rcases c with ⟨tag, op, arg⟩
  cases op with
  | present => exact ⟨[], .present tag arg, block_nil, rfl, fun n => rfl⟩
  | contains =>
    cases arg with
    | none => simp [Plan.lacksArgument] at h
    | some arg =>
      refine ⟨_, .contains tag arg, hand.append (block_valueContains d _), ?_, fun n => ?_⟩
      · rw [argsOf_append, argsOf_fixed, argsOf_valueContains]
        rfl
      · rw [written_append, written_fixed, argsOf_fixed, written_valueContains,
          ← String.toList_append]
        rfl
  | compare o =>
    cases arg with
    | none => simp [Plan.lacksArgument] at h
    | some arg =>
      cases arg with
      | text s =>
        refine ⟨_, .text tag o s, ?_, ?_, fun n => ?_⟩
        · have hvalue : Block (fixed " AND a.value ") := block_ofList (by decide) (by decide)
          rw [fixed_append, fixed_append]
          exact ((hvalue.append (block_symbol o)).append hspace).append (.arg_cons _ block_nil)
        · rw [argsOf_append, argsOf_fixed]
          rfl
        · rw [written_append, written_fixed, argsOf_fixed, written_arg, written, List.append_nil,
            ← String.toList_append]
          rfl
      | number n =>
        refine ⟨_, .number tag o n, ?_, ?_, fun k => ?_⟩
        · simp only [fixed_append]
          exact ((hand.append (block_numericColumn d)).append
            ((hspace.append (block_symbol o)).append hspace)).append (block_asNumber d _)
        · rw [argsOf_append, argsOf_fixed, argsOf_asNumber]
          rfl
        · rw [written_append, written_fixed, argsOf_fixed, written_asNumber,
            ← String.toList_append]
          rfl

/-- A condition with the argument of its operator is rendered as it is spelled. -/
theorem exists_spelled (d : Dialect) {c : Condition} (h : Plan.lacksArgument c = false) :
    ∃ clause, c.Spelled d clause ∧ Block clause ∧ argsOf clause = conditionArgs c ∧
      ∀ n, written n clause = (semiJoin d n c).toList := by
  obtain ⟨asked, hasks, hblock, hargs, hwritten⟩ := exists_asks d h
  refine ⟨_, .intro hasks, ?_, ?_, fun n => ?_⟩
  · have hend : Block (fixed ")") := block_ofList (by decide) (by decide)
    rw [fixed_append]
    exact ((block_ofList (by decide) (by decide)).append
      (block_ofList (by decide) (by decide))).append (.arg_cons _ (hblock.append hend))
  · rw [argsOf_append, argsOf_fixed, argsOf_arg, argsOf_append, argsOf_fixed, hargs,
      List.append_nil]
    rfl
  · have hjoin : semiJoin d n c =
        "EXISTS (SELECT 1 FROM events e JOIN attributes a ON a.event_id = e.rowid " ++
          ("WHERE e.tx_id = c.tx_id AND a.composite_key = " ++ placeholder n) ++
          predicate d (n + 1) c.test ++ ")" := rfl
    rw [written_append, written_fixed, argsOf_fixed, written_arg, written_append, written_fixed,
      hwritten, hjoin]
    simp only [String.toList_append, List.append_assoc, List.length_nil, Nat.add_zero]

/-- Conditions with the arguments of their operators are rendered as they are spelled. -/
theorem exists_spelled_intercalate (d : Dialect) {cs : List Condition}
    (h : ∀ c ∈ cs, Plan.lacksArgument c = false) :
    ∃ clauses, List.Forall₂ (Condition.Spelled d) cs clauses ∧ (∀ clause ∈ clauses, Block clause) ∧
      argsOf (List.intercalate (fixed "\n      AND ") clauses) = cs.flatMap conditionArgs ∧
      ∀ n, written n (List.intercalate (fixed "\n      AND ") clauses) =
        ("\n      AND ".intercalate (semiJoins d n cs)).toList := by
  induction cs with
  | nil => exact ⟨[], .nil, List.forall_mem_nil _, rfl, fun n => rfl⟩
  | cons c cs ih =>
    obtain ⟨clause, hclause, hblock, hargs, hwritten⟩ :=
      exists_spelled d (h c List.mem_cons_self)
    obtain ⟨clauses, hclauses, hblocks, hargs', hwritten'⟩ :=
      ih fun c' hc' => h c' (List.mem_cons_of_mem _ hc')
    refine ⟨clause :: clauses, .cons hclause hclauses, List.forall_mem_cons.2 ⟨hblock, hblocks⟩, ?_⟩
    cases hclauses with
    | nil => exact ⟨by simpa using hargs, fun n => by simpa [semiJoins] using hwritten n⟩
    | @cons c' clause' cs clauses _ _ =>
      rw [List.intercalate_cons_cons]
      refine ⟨?_, fun n => ?_⟩
      · rw [argsOf_append, argsOf_append, argsOf_fixed, hargs, hargs', List.append_nil]
        rfl
      · have hjoins : "\n      AND ".intercalate (semiJoins d n (c :: c' :: cs)) =
            semiJoin d n c ++ "\n      AND " ++ "\n      AND ".intercalate
              (semiJoins d (n + (conditionArgs c).length) (c' :: cs)) := by
          simp only [semiJoins, String.intercalate_cons_cons]
        rw [written_append, written_append, written_fixed, argsOf_append, argsOf_fixed,
          List.append_nil, hwritten, hwritten', hargs, hjoins, String.toList_append,
          String.toList_append]

/-- Conditions with the arguments of their operators make up the clause as they are spelled. -/
theorem exists_spelledWhere (d : Dialect) {cs : List Condition}
    (h : ∀ c ∈ cs, Plan.lacksArgument c = false) :
    ∃ clauses, List.Forall₂ (Condition.Spelled d) cs clauses ∧ Block (spelledWhere clauses) ∧
      argsOf (spelledWhere clauses) = cs.flatMap conditionArgs ∧
      ∀ n, written n (spelledWhere clauses) = (whereClause (semiJoins d n cs)).toList := by
  obtain ⟨clauses, hclauses, hblocks, hargs, hwritten⟩ := exists_spelled_intercalate d h
  refine ⟨clauses, hclauses, ?_⟩
  cases hclauses with
  | nil => exact ⟨block_nil, rfl, fun n => rfl⟩
  | cons _ _ =>
    have hwhere : Block (fixed "WHERE ") := block_ofList (by decide) (by decide)
    have hand : Block (fixed "\n      AND ") := block_ofList (by decide) (by decide)
    refine ⟨hwhere.append (hand.intercalate hblocks), ?_, fun n => ?_⟩
    · rw [spelledWhere, List.isEmpty_cons, if_neg Bool.false_ne_true, argsOf_append, argsOf_fixed,
        hargs, List.nil_append]
    · have hclause := hwritten n
      rw [spelledWhere, List.isEmpty_cons, if_neg Bool.false_ne_true, written_append,
        written_fixed, argsOf_fixed, List.length_nil, Nat.add_zero, hclause, whereClause, semiJoins,
        List.isEmpty_cons, if_neg Bool.false_ne_true, String.toList_append]

/-! ## Windows -/

section Windows

variable (c : Comparison) (height : Int64)

theorem block_compared : Block (HeightWindow.compared c.symbol height) := by
  have hheight : Block (fixed "tr.height ") := block_ofList (by decide) (by decide)
  have hspace : Block (fixed " ") := block_ofList (by decide) (by decide)
  rw [HeightWindow.compared, fixed_append, fixed_append]
  exact ((hheight.append (block_symbol c)).append hspace).append (.arg_cons _ block_nil)

theorem argsOf_compared : argsOf (HeightWindow.compared c.symbol height) = [.int height] := by
  rw [HeightWindow.compared, argsOf_append, argsOf_fixed]
  rfl

theorem written_compared (n : Nat) : written n (HeightWindow.compared c.symbol height) =
    ("tr.height " ++ c.symbol ++ " " ++ placeholder n).toList := by
  rw [HeightWindow.compared, written_append, written_fixed, argsOf_fixed, written_arg, written,
    List.append_nil, ← String.toList_append]
  rfl

end Windows

theorem above_eq (b : Bound) : HeightWindow.above b =
    HeightWindow.compared (HeightWindow.lowerBound b).1.symbol b.value := by
  rw [HeightWindow.above, HeightWindow.lowerBound]
  cases b.inclusive <;> rfl

theorem below_eq (b : Bound) : HeightWindow.below b =
    HeightWindow.compared (HeightWindow.upperBound b).1.symbol b.value := by
  rw [HeightWindow.below, HeightWindow.upperBound]
  cases b.inclusive <;> rfl

/-- A window with a comparison is rendered as it is spelled. -/
theorem exists_spelledWindow {w : HeightWindow} {tip : Option Int64}
    {bounds : List (Comparison × Int64)} (hbounds : w.bounds? tip = some bounds)
    (hrange : ∀ r, w = .range r → r.lower ≠ none ∨ r.upper ≠ none) :
    ∃ heights, w.Spelled tip heights ∧ Block heights ∧
      argsOf heights = (w.heights tip).map .int ∧
      written 1 heights = (" AND ".intercalate (heightClauses 1 bounds)).toList ∧
      bounds.map Prod.snd = w.heights tip := by
  have hand : Block (fixed " AND ") := block_ofList (by decide) (by decide)
  cases w with
  | exact height =>
    obtain rfl := Option.some.inj hbounds
    refine ⟨_, .exact height, block_compared .eq height, argsOf_compared .eq height, ?_, rfl⟩
    rw [heightClauses, heightClauses, String.intercalate_singleton]
    exact written_compared .eq height 1
  | belowTip =>
    obtain ⟨height, rfl, rfl⟩ := Option.map_eq_some_iff.1 hbounds
    refine ⟨_, .belowTip rfl, block_compared .le height, argsOf_compared .le height, ?_, rfl⟩
    rw [heightClauses, heightClauses, String.intercalate_singleton]
    exact written_compared .le height 1
  | range r =>
    obtain rfl := Option.some.inj hbounds
    obtain ⟨lower, upper⟩ := r
    match lower, upper, hrange _ rfl with
    | none, none, hbounded => exact absurd rfl (hbounded.elim (absurd rfl) id)
    | some b, none, _ =>
      refine ⟨_, .above b, ?_, ?_, ?_, rfl⟩
      · rw [above_eq]
        exact block_compared _ _
      · rw [above_eq, argsOf_compared]
        rfl
      · rw [above_eq, written_compared]
        rfl
    | none, some b, _ =>
      refine ⟨_, .below b, ?_, ?_, ?_, rfl⟩
      · rw [below_eq]
        exact block_compared _ _
      · rw [below_eq, argsOf_compared]
        rfl
      · rw [below_eq, written_compared]
        rfl
    | some b, some b', _ =>
      refine ⟨_, .between b b', ?_, ?_, ?_, rfl⟩
      · rw [above_eq, below_eq]
        exact ((block_compared _ _).append hand).append (block_compared _ _)
      · rw [above_eq, below_eq, argsOf_append, argsOf_append, argsOf_compared, argsOf_compared,
          argsOf_fixed]
        rfl
      · rw [above_eq, below_eq, written_append, written_append, argsOf_append, written_compared,
          written_compared, argsOf_compared, argsOf_fixed, written_fixed, ← String.toList_append,
          ← String.toList_append]
        rfl

/-! ## The whole text -/

/-- Where a text is joined from lines, what is put behind one of them stands between what comes
before and what comes after. -/
theorem intercalate_filled (sep before text : String) (front back : List String) :
    sep.intercalate (front ++ (before ++ text) :: back) =
      sep.intercalate (front ++ [before]) ++ (text ++ sep.intercalate ("" :: back)) := by
  induction front with
  | nil => cases back <;> simp [String.intercalate_cons_cons, String.append_assoc]
  | cons line front ih =>
    have hcons (l : String) (ls : List String) : sep.intercalate (line :: (front ++ l :: ls)) =
        line ++ sep ++ sep.intercalate (front ++ l :: ls) :=
      String.intercalate_cons_of_ne_nil (by simp)
    rw [List.cons_append, List.cons_append, hcons, hcons, ih]
    simp only [String.append_assoc]

/-- The lines of a statement as one text. -/
theorem intercalate_lines (height filters : String) (limit : UInt16) :
    "\n".intercalate (lines height filters limit) =
      opening ++ (height ++ (middle ++ (filters ++ (order ++ (toString limit ++ closing))))) := by
  refine (intercalate_filled "\n" "    WHERE " height [_, _, _, _] _).trans ?_
  refine congrArg (fun rest => opening ++ (height ++ rest)) ?_
  refine (intercalate_filled "\n" "    " filters [_, _, _, _, _] _).trans ?_
  refine congrArg (fun rest => middle ++ (filters ++ rest)) ?_
  exact intercalate_filled "\n" "    LIMIT " (toString limit) [_, _] _

end Sql

/-! ## Compiled plans as statements -/

namespace Plan

variable {q : Query} {limit ceiling : UInt16} {p : Plan}

/-- The arguments of a condition are the texts it speaks of. -/
theorem conditionArgs_eq {c : Condition} (h : lacksArgument c = false) :
    conditionArgs c = c.operands.map .text := by
  rcases c with ⟨tag, op, arg⟩
  cases op with
  | present => rfl
  | contains =>
    cases arg with
    | none => simp [lacksArgument] at h
    | some arg => rfl
  | compare o =>
    cases arg with
    | none => simp [lacksArgument] at h
    | some arg => cases arg <;> rfl

/-- **Placeholders and arguments stay aligned.** In the statement of a compiled plan the
placeholders are numbered from one on in their order, as many as there are arguments: first the
heights of the window, then for each filter the texts it speaks of. With the arguments in place the
statement is the plan spelled out. -/
theorem render_aligned (hp : compileWithin q limit ceiling = .ok p) (d : Dialect)
    (tip : Option Int64) {st : Statement} (hst : p.render d tip = .ok st) :
    st.placeholders = (List.range' 1 st.args.length).map (Nat.toDigits 10) ∧
      st.args = (p.window.heights tip).map .int ++
        (p.filters.flatMap Condition.operands).map .text ∧
      ∃ heights clauses, p.window.Spelled tip heights ∧
        List.Forall₂ (Condition.Spelled d) p.filters clauses ∧
        st.filled = some (spelledOut heights clauses p.limit) := by
  have hargument := lacksArgument_of_compile hp
  cases hbounds : p.window.bounds? tip with
  | none => simp [render, hbounds] at hst
  | some bounds =>
    obtain ⟨heights, hheights, hblock, hargs, hwritten, hvalues⟩ :=
      exists_spelledWindow hbounds (compiles_of_compileWithin hp).bounded
    obtain ⟨clauses, hclauses, hblock', hargs', hwritten'⟩ := exists_spelledWhere d hargument
    have hplan : Block (spelledOut heights clauses p.limit) :=
      (((block_opening.append hblock).append block_middle).append hblock').append
        (block_closing p.limit)
    have hplanArgs : argsOf (spelledOut heights clauses p.limit) =
        (p.window.heights tip).map .int ++ p.filters.flatMap conditionArgs := by
      simp only [spelledOut, argsOf_append, argsOf_fixed, hargs, hargs', List.nil_append,
        List.append_nil]
    have hst' : st = ⟨"\n".intercalate (lines (" AND ".intercalate (heightClauses 1 bounds))
        (whereClause (semiJoins d (bounds.length + 1) p.filters)) p.limit),
        bounds.map (fun bound => .int bound.2) ++ p.filters.flatMap conditionArgs⟩ := by
      rw [render, hbounds] at hst
      exact (Except.ok.inj hst).symm
    have htext : st.text.toList = written 1 (spelledOut heights clauses p.limit) := by
      have hlength : 1 + (p.window.heights tip).length = bounds.length + 1 := by
        rw [← hvalues, List.length_map, Nat.add_comm]
      rw [hst', intercalate_lines]
      simp only [spelledOut, written_append, written_fixed, argsOf_fixed, List.length_nil,
        Nat.add_zero, hargs, List.length_map, hlength, hwritten, hwritten', String.toList_append,
        List.append_assoc]
    have hstArgs : st.args = argsOf (spelledOut heights clauses p.limit) := by
      rw [hst', hplanArgs, ← hvalues, List.map_map]
      rfl
    have hoperands : p.filters.flatMap conditionArgs =
        (p.filters.flatMap Condition.operands).map .text := by
      rw [List.map_flatMap]
      exact List.flatMap_congr fun c hc => conditionArgs_eq (hargument c hc)
    obtain ⟨hplaceholders, hfilled⟩ := Statement.filled_of_written htext hstArgs hplan.apart
    refine ⟨hplaceholders, ?_, heights, clauses, hheights, hclauses, hfilled⟩
    rw [hstArgs, hplanArgs, hoperands]

/-- A query with a limit and filters of every kind, one of them about a text that looks like a
placeholder. -/
def everyKind : Query :=
  ⟨[.present "message.action", .compare .gt txHeightKey (.number ⟨"5"⟩),
    .compare .ge "transfer.amount" (.number ⟨"10"⟩), .contains "memo.text" "$1",
    .compare .eq "transfer.recipient" (.text "bob"), .compare .lt "fee.paid" (.number ⟨"2.50"⟩)]⟩

/-- The general statement at that query. -/
theorem render_aligned_everyKind : ∃ p st, compileWithin everyKind 10 Plan.ceiling = .ok p ∧
    p.render .sqlite none = .ok st ∧
    st.placeholders = [['1'], ['2'], ['3'], ['4'], ['5'], ['6'], ['7'], ['8'], ['9'], ['1', '0']] ∧
    st.args = [.int 5, .text "message.action", .text "transfer.amount", .text "10",
      .text "memo.text", .text "$1", .text "transfer.recipient", .text "bob", .text "fee.paid",
      .text "2.50"] ∧
    ∃ heights clauses, p.window.Spelled none heights ∧
      List.Forall₂ (Condition.Spelled .sqlite) p.filters clauses ∧
      st.filled = some (spelledOut heights clauses p.limit) := by
  have hp : compileWithin everyKind 10 Plan.ceiling =
      .ok ⟨.range ⟨some ⟨5, false⟩, none⟩, everyKind.filters, min 10 Plan.ceiling⟩ := by
    decide +kernel
  obtain ⟨hplaceholders, hargs, hfilled⟩ := render_aligned hp .sqlite none rfl
  refine ⟨_, _, hp, rfl, ?_, hargs.trans ?_, hfilled⟩
  · rw [hplaceholders]
    decide +kernel
  · decide +kernel

end Plan
end TxIndex
