import TxIndex.Proofs.Sql.Patterns
import TxIndex.Proofs.Text.Numerals
import TxIndex.Sql.Dialect

/-! # Guards of numeric comparisons

Before a stored text is compared as a number a statement tests that it is one. PostgreSQL has a
regular expression for this; SQLite has wildcard patterns only, two for how a number begins and four
for what it is not. Read as the databases read them, both tests accept the same texts, which are
also those that a query may have as numbers (`Dialect.guards_accept_literals`).

For SQLite the test is taken apart pattern by pattern: each of the six is turned into a statement
about characters (`Glob.accepts_digit` and those behind it), and the six statements together say
that there is a digit at the front, behind at most one sign, and at most one point, which is not the
last. For PostgreSQL the language of the expression is computed from its parts
(`Regex.mem_numeral`). -/
namespace TxIndex

/-- A test of a text, as statements have it. -/
inductive Guard where
  | glob (pattern : String)
  | notGlob (pattern : String)
  | regex (r : Regex)
  | both (g g' : Guard)
  | either (g g' : Guard)

namespace Guard

/-- The test as it is written. -/
def text (expr : String) : Guard → String
  | glob pattern => expr ++ " GLOB '" ++ pattern ++ "'"
  | notGlob pattern => expr ++ " NOT GLOB '" ++ pattern ++ "'"
  | regex r => expr ++ " ~ '^" ++ r.text ++ "$'"
  | both g g' => g.text expr ++ " AND " ++ g'.text expr
  | either g g' => "(" ++ g.text expr ++ " OR " ++ g'.text expr ++ ")"

/-- A text passes the test. -/
def Holds (cs : List Char) : Guard → Prop
  | glob pattern => Glob.Accepts pattern cs
  | notGlob pattern => ¬ Glob.Accepts pattern cs
  | regex r => cs ∈ r.language
  | both g g' => g.Holds cs ∧ g'.Holds cs
  | either g g' => g.Holds cs ∨ g'.Holds cs

end Guard

/-- The expression for numbers, `-?[0-9]+(\.[0-9]+)?`. -/
def Regex.numeral : Regex :=
  .followedBy (.optional (.char '-')) (.followedBy (.repeated (.range '0' '9'))
    (.optional (.followedBy (.char '.') (.repeated (.range '0' '9')))))

theorem Regex.text_numeral : Regex.numeral.text = "-?[0-9]+(\\.[0-9]+)?" := by decide

namespace Dialect

/-- The test for a number. -/
def guard : Dialect → Guard
  | .postgres => .regex .numeral
  | .sqlite =>
    .both (.both (.both (.both (.either (.glob "[0-9]*") (.glob "-[0-9]*"))
      (.notGlob "*[^0-9.-]*")) (.notGlob "?*-*")) (.notGlob "*.*.*")) (.notGlob "*.")

/-- The type of numbers. -/
def numericType : Dialect → String
  | .postgres => "NUMERIC"
  | .sqlite => "REAL"

/-- The numeric view of a text is written as the test and a cast. -/
theorem numericColumn_eq (d : Dialect) (expr : String) : d.numericColumn expr =
    "(CASE WHEN " ++ d.guard.text expr ++ " THEN CAST(" ++ expr ++ " AS " ++ d.numericType ++
      ") END)" := by
  cases d with
  | postgres =>
    have htest : " ~ '^-?[0-9]+(\\.[0-9]+)?$' THEN CAST(" =
        " ~ '^" ++ ("-?[0-9]+(\\.[0-9]+)?" ++ ("$'" ++ " THEN CAST(")) := rfl
    have hcast : " AS NUMERIC) END)" = " AS " ++ ("NUMERIC" ++ ") END)") := rfl
    have hcolumn : numericColumn .postgres expr = "(CASE WHEN " ++ expr ++
      " ~ '^-?[0-9]+(\\.[0-9]+)?$' THEN CAST(" ++ expr ++ " AS NUMERIC) END)" := rfl
    rw [hcolumn, htest, hcast, guard, Guard.text, Regex.text_numeral, numericType]
    simp only [String.append_assoc, -String.reduceAppend]
  | sqlite =>
    have hcast : " AS REAL) END)" = " AS " ++ ("REAL" ++ ") END)") := rfl
    have hcolumn : numericColumn .sqlite expr =
      "(CASE WHEN " ++ patternTest expr ++ " THEN CAST(" ++ expr ++ " AS REAL) END)" := rfl
    rw [hcolumn, hcast]
    simp only [patternTest, leadPatterns, refusedPatterns, guard, Guard.text, numericType, toString,
      List.map_cons, List.map_nil, String.intercalate_cons_cons, String.intercalate_singleton,
      String.join, List.foldl_cons, List.foldl_nil, String.empty_append, String.append_assoc]

end Dialect

/-! ## What the patterns say -/

namespace Glob

variable {cs : List Char} {gs : List Glob} {c : Char}

theorem between_digits : ('0' ≤ c ∧ c ≤ '9') ↔ c.isDigit = true := by
  rw [Char.isDigit, Bool.and_eq_true, decide_eq_true_eq, decide_eq_true_eq]
  exact Iff.rfl

/-- A run and a character look for the character anywhere. -/
theorem matches_anyRun_char :
    Matches (.anyRun :: .char c :: gs) cs ↔ ∃ before after, cs = before ++ c :: after ∧
      Matches gs after := by
  simp only [matches_anyRun, matches_char]
  constructor
  · rintro ⟨before, _, rfl, after, rfl, h⟩
    exact ⟨before, after, rfl, h⟩
  · rintro ⟨before, after, rfl, h⟩
    exact ⟨before, _, rfl, after, rfl, h⟩

theorem matches_mem : Matches [.anyRun, .char c, .anyRun] cs ↔ c ∈ cs := by
  simp only [matches_anyRun_char, matches_anyRun_last, and_true]
  exact List.mem_iff_append.symm

/-- The items of the class of digits. -/
def digit : Glob := .oneOf false [('0', '0'), ('0', '9')]

theorem matches_digit :
    Matches (digit :: gs) cs ↔ ∃ c rest, cs = c :: rest ∧ c.isDigit = true ∧ Matches gs rest := by
  have hranges : ∀ c, InRanges [('0', '0'), ('0', '9')] c ↔ c.isDigit = true := by
    intro c
    simp only [inRanges_cons, inRanges_nil, ← le_antisymm_iff, between_digits, or_false]
    exact or_iff_right_of_imp fun h => h ▸ rfl
  simp only [digit, matches_oneOf, hranges, iff_true]

theorem accepts_digit :
    Accepts "[0-9]*" cs ↔ ∃ c rest, cs = c :: rest ∧ c.isDigit = true := by
  have hitems : items? none "[0-9]*".toList = some [digit, .anyRun] := rfl
  simp only [accepts_iff hitems, matches_digit, matches_anyRun_last, and_true]

theorem accepts_minus_digit :
    Accepts "-[0-9]*" cs ↔ ∃ c rest, cs = '-' :: c :: rest ∧ c.isDigit = true := by
  have hitems : items? none "-[0-9]*".toList = some [.char '-', digit, .anyRun] := rfl
  simp only [accepts_iff hitems, matches_char, matches_digit, matches_anyRun_last, and_true]
  constructor
  · rintro ⟨_, rfl, c, rest, rfl, hc⟩
    exact ⟨c, rest, rfl, hc⟩
  · rintro ⟨c, rest, rfl, hc⟩
    exact ⟨_, rfl, c, rest, rfl, hc⟩

theorem accepts_other_char : Accepts "*[^0-9.-]*" cs ↔
    ∃ c ∈ cs, ¬ (c.isDigit = true ∨ c = '.' ∨ c = '-') := by
  have hitems : items? none "*[^0-9.-]*".toList = some [.anyRun,
      .oneOf true [('0', '0'), ('0', '9'), ('.', '.'), ('-', '-')], .anyRun] := rfl
  have hranges : ∀ c, InRanges [('0', '0'), ('0', '9'), ('.', '.'), ('-', '-')] c ↔
      c.isDigit = true ∨ c = '.' ∨ c = '-' := by
    intro c
    simp only [inRanges_cons, inRanges_nil, ← le_antisymm_iff, between_digits, or_false]
    rw [eq_comm (a := '.'), eq_comm (a := '-')]
    exact or_iff_right_of_imp fun h => .inl (h ▸ rfl)
  rw [accepts_iff hitems, matches_anyRun]
  simp only [matches_oneOf, matches_anyRun_last, hranges, and_true, Bool.true_eq_false, iff_false]
  constructor
  · rintro ⟨before, _, rfl, c, after, rfl, hc⟩
    exact ⟨c, by simp, hc⟩
  · rintro ⟨c, hmem, hc⟩
    obtain ⟨before, after, rfl⟩ := List.mem_iff_append.1 hmem
    exact ⟨before, _, rfl, c, after, rfl, hc⟩

theorem accepts_inner_dash :
    Accepts "?*-*" cs ↔ ∃ c rest, cs = c :: rest ∧ '-' ∈ rest := by
  have hitems : items? none "?*-*".toList = some [.anyOne, .anyRun, .char '-', .anyRun] := rfl
  simp only [accepts_iff hitems, matches_anyOne, matches_mem]

theorem accepts_two_points :
    Accepts "*.*.*" cs ↔ ∃ before after, cs = before ++ '.' :: after ∧ '.' ∈ after := by
  have hitems : items? none "*.*.*".toList =
      some [.anyRun, .char '.', .anyRun, .char '.', .anyRun] := rfl
  rw [accepts_iff hitems, matches_anyRun_char]
  simp only [matches_mem]

theorem accepts_last_point : Accepts "*." cs ↔ ∃ before, cs = before ++ ['.'] := by
  have hitems : items? none "*.".toList = some [.anyRun, .char '.'] := rfl
  simp [accepts_iff hitems, matches_anyRun_char, matches_nil]

end Glob

/-! ## What the guards say -/

namespace Decimal

variable {cs : List Char}

/-- What begins with a digit, has digits and points only, no two points and none at the end, is a
numeral without a sign. -/
theorem exists_parts (hlead : ∃ c rest, cs = c :: rest ∧ c.isDigit = true)
    (hchars : ∀ c ∈ cs, c.isDigit = true ∨ c = '.')
    (hpoints : ¬ ∃ before after, cs = before ++ '.' :: after ∧ '.' ∈ after)
    (hlast : ¬ ∃ before, cs = before ++ ['.']) :
    ∃ whole fraction, IsRun whole ∧
      (fraction = [] ∨ ∃ digits, IsRun digits ∧ fraction = '.' :: digits) ∧
      cs = whole ++ fraction := by
  obtain ⟨c, rest, hcs, hc⟩ := hlead
  by_cases hpoint : '.' ∈ cs
  · obtain ⟨whole, digits, rfl, hwhole⟩ := List.eq_append_cons_of_mem hpoint
    refine ⟨whole, '.' :: digits, ⟨?_, fun d hd => ?_⟩, .inr ⟨digits, ⟨?_, fun d hd => ?_⟩, rfl⟩,
      rfl⟩
    · rintro rfl
      obtain ⟨rfl, -⟩ := List.cons.inj hcs
      exact absurd hc (by decide)
    · exact (hchars d (by simp [hd])).resolve_right fun h => hwhole (h ▸ hd)
    · rintro rfl
      exact hlast ⟨whole, rfl⟩
    · exact (hchars d (by simp [hd])).resolve_right fun h => hpoints ⟨whole, digits, rfl, h ▸ hd⟩
  · refine ⟨cs, [], ⟨by simp [hcs], fun d hd => ?_⟩, .inl rfl, (List.append_nil cs).symm⟩
    exact (hchars d hd).resolve_right fun h => hpoint (h ▸ hd)

end Decimal

namespace Dialect

variable {cs : List Char}

theorem isNumeral_of_guard (h : (guard .sqlite).Holds cs) : Decimal.IsNumeral cs := by
  simp only [guard, Guard.Holds, Glob.accepts_digit, Glob.accepts_minus_digit,
    Glob.accepts_other_char, Glob.accepts_inner_dash, Glob.accepts_two_points,
    Glob.accepts_last_point] at h
  obtain ⟨⟨⟨⟨hlead, hchars⟩, hdash⟩, hpoints⟩, hlast⟩ := h
  -- Behind the sign, if there is one, there is no dash.
  have hbody : ∃ sign body, (sign = [] ∨ sign = ['-']) ∧ cs = sign ++ body ∧
      (∃ c rest, body = c :: rest ∧ c.isDigit = true) ∧ '-' ∉ body := by
    rcases hlead with ⟨c, rest, rfl, hc⟩ | ⟨c, rest, rfl, hc⟩
    · refine ⟨[], c :: rest, .inl rfl, rfl, ⟨c, rest, rfl, hc⟩, fun hmem => ?_⟩
      rcases List.mem_cons.1 hmem with rfl | hmem
      · exact absurd hc (by decide)
      · exact hdash ⟨c, rest, rfl, hmem⟩
    · exact ⟨['-'], c :: rest, .inr rfl, rfl, ⟨c, rest, rfl, hc⟩, fun hmem =>
        hdash ⟨'-', c :: rest, rfl, hmem⟩⟩
  obtain ⟨sign, body, hsign, rfl, hlead, hdash⟩ := hbody
  have hdigits : ∀ c ∈ body, c.isDigit = true ∨ c = '.' := by
    intro c hc
    by_contra hother
    refine hchars ⟨c, List.mem_append_right sign hc, fun h => ?_⟩
    rcases h with h | h | h
    · exact hother (.inl h)
    · exact hother (.inr h)
    · exact hdash (h ▸ hc)
  obtain ⟨whole, fraction, hwhole, hfraction, rfl⟩ := Decimal.exists_parts hlead hdigits
    (fun ⟨before, after, hbody, hafter⟩ =>
      hpoints ⟨sign ++ before, after, by rw [hbody, List.append_assoc], hafter⟩)
    (fun ⟨before, hbody⟩ => hlast ⟨sign ++ before, by rw [hbody, List.append_assoc]⟩)
  exact ⟨sign, whole, fraction, hsign, hwhole, hfraction, rfl⟩

theorem guard_of_isNumeral (h : Decimal.IsNumeral cs) : (guard .sqlite).Holds cs := by
  have hlast := h.getLast?_ne_point
  obtain ⟨sign, whole, fraction, hsign, hwhole, hfraction, rfl⟩ := h
  have hbody : ∀ c ∈ whole ++ fraction, c.isDigit = true ∨ c = '.' := by
    intro c hc
    rcases List.mem_append.1 hc with hc | hc
    · exact .inl (hwhole.2 c hc)
    · rcases hfraction with rfl | ⟨digits, hdigits, rfl⟩
      · exact absurd hc List.not_mem_nil
      · rcases List.mem_cons.1 hc with rfl | hc
        · exact .inr rfl
        · exact .inl (hdigits.2 c hc)
  have hnoDash : '-' ∉ whole ++ fraction := fun hmem => absurd (hbody _ hmem) (by decide)
  obtain ⟨c, rest, rfl⟩ := List.exists_cons_of_ne_nil hwhole.1
  have hc := hwhole.2 c List.mem_cons_self
  simp only [guard, Guard.Holds, Glob.accepts_digit, Glob.accepts_minus_digit,
    Glob.accepts_other_char, Glob.accepts_inner_dash, Glob.accepts_two_points,
    Glob.accepts_last_point]
  refine ⟨⟨⟨⟨?lead, ?chars⟩, ?dash⟩, ?points⟩, ?last⟩
  case lead =>
    rcases hsign with rfl | rfl
    · exact .inl ⟨c, _, rfl, hc⟩
    · exact .inr ⟨c, _, rfl, hc⟩
  case chars =>
    rintro ⟨d, hd, hother⟩
    rcases List.mem_append.1 hd with hd | hd
    · rcases hsign with rfl | rfl
      · exact absurd hd List.not_mem_nil
      · exact hother (.inr (.inr (List.mem_singleton.1 hd)))
    · exact hother ((hbody d hd).imp_right .inl)
  case dash =>
    rintro ⟨d, tail, heq, hmem⟩
    rcases hsign with rfl | rfl
    · rw [List.nil_append] at heq
      exact hnoDash (heq ▸ List.mem_cons_of_mem _ hmem)
    · obtain ⟨-, rfl⟩ := List.cons.inj heq
      exact hnoDash hmem
  case points =>
    rintro ⟨before, after, heq, hmem⟩
    have hcount := congrArg (List.count '.') heq
    have hafter : 0 < after.count '.' := List.count_pos_iff.2 hmem
    have hsignCount : sign.count '.' = 0 := by rcases hsign with rfl | rfl <;> rfl
    have hwholeCount : (c :: rest).count '.' = 0 :=
      List.count_eq_zero.2 (hwhole.not_mem (by decide))
    have hfractionCount : fraction.count '.' ≤ 1 := by
      rcases hfraction with rfl | ⟨digits, hdigits, rfl⟩
      · exact Nat.zero_le 1
      · rw [List.count_cons_self, List.count_eq_zero.2 (hdigits.not_mem (by decide))]
    rw [List.count_append, List.count_append, List.count_append, List.count_cons_self, hsignCount,
      hwholeCount] at hcount
    omega
  case last =>
    rintro ⟨before, heq⟩
    exact hlast (by rw [heq, List.getLast?_concat])

/-- The patterns accept the numerals. -/
theorem guard_sqlite_iff : (guard .sqlite).Holds cs ↔ Decimal.IsNumeral cs :=
  ⟨isNumeral_of_guard, guard_of_isNumeral⟩

end Dialect

namespace Regex

open Computability

variable {cs : List Char} {r r' : Regex}

theorem mem_char {c : Char} : cs ∈ (char c).language ↔ cs = [c] := Iff.rfl

theorem mem_followedBy : cs ∈ (r.followedBy r').language ↔
    ∃ front ∈ r.language, ∃ back ∈ r'.language, front ++ back = cs := Language.mem_mul

theorem mem_optional : cs ∈ r.optional.language ↔ cs = [] ∨ cs ∈ r.language :=
  Language.mem_add _ _ _

/-- Digits one after the other are a run. -/
theorem mem_digits : cs ∈ (repeated (.range '0' '9')).language ↔ Decimal.IsRun cs := by
  have hdigit : ∀ {ds : List Char}, ds ∈ (range '0' '9').language ↔
      ∃ c : Char, c.isDigit = true ∧ ds = [c] := by
    intro ds
    simp only [← Glob.between_digits, and_assoc]
    exact Iff.rfl
  constructor
  · rintro ⟨first, hfirst, later, ⟨parts, rfl, hparts⟩, rfl⟩
    obtain ⟨c, hc, rfl⟩ := hdigit.1 hfirst
    refine ⟨List.cons_ne_nil _ _, List.forall_mem_cons.2 ⟨hc, fun d hd => ?_⟩⟩
    obtain ⟨part, hpart, hd⟩ := List.mem_flatten.1 hd
    obtain ⟨d', hd', rfl⟩ := hdigit.1 (hparts part hpart)
    rwa [List.mem_singleton.1 hd]
  · rintro ⟨hne, hall⟩
    obtain ⟨c, rest, rfl⟩ := List.exists_cons_of_ne_nil hne
    refine ⟨[c], hdigit.2 ⟨c, hall c List.mem_cons_self, rfl⟩, rest,
      ⟨rest.map fun d => [d], ?_, ?_⟩, rfl⟩
    · rw [← List.flatMap_def, List.flatMap_singleton']
    · intro part hpart
      obtain ⟨d, hd, rfl⟩ := List.mem_map.1 hpart
      exact hdigit.2 ⟨d, hall d (List.mem_cons_of_mem _ hd), rfl⟩

/-- The regular expression matches the numerals. -/
theorem mem_numeral : cs ∈ numeral.language ↔ Decimal.IsNumeral cs := by
  simp only [numeral, mem_followedBy, mem_optional, mem_char, mem_digits]
  constructor
  · rintro ⟨sign, hsign, _, ⟨whole, hwhole, fraction, hfraction, rfl⟩, rfl⟩
    refine ⟨sign, whole, fraction, hsign, hwhole, hfraction.imp_right ?_, rfl⟩
    rintro ⟨_, rfl, digits, hdigits, rfl⟩
    exact ⟨digits, hdigits, rfl⟩
  · rintro ⟨sign, whole, fraction, hsign, hwhole, hfraction, rfl⟩
    refine ⟨sign, hsign, _, ⟨whole, hwhole, fraction, hfraction.imp_right ?_, rfl⟩, rfl⟩
    rintro ⟨digits, hdigits, rfl⟩
    exact ⟨_, rfl, digits, hdigits, rfl⟩

end Regex

/-- **The guards accept the literals.** The test that the numeric view of either database makes is
passed by a text exactly if the regular expression `-?[0-9]+(\.[0-9]+)?` matches all of it, and so
it does for the literals of queries and no other texts. The test that searches make is that of
SQLite on what stands before the first NUL. -/
theorem Dialect.guards_accept_literals :
    (∀ (d : Dialect) (expr : String), d.numericColumn expr =
      "(CASE WHEN " ++ d.guard.text expr ++ " THEN CAST(" ++ expr ++ " AS " ++ d.numericType ++
        ") END)") ∧
    Regex.numeral.text = "-?[0-9]+(\\.[0-9]+)?" ∧
    (∀ (d : Dialect) (s : String), d.guard.Holds s.toList ↔ s.toList ∈ Regex.numeral.language) ∧
    (∀ s : String, (Literal.parse? s).isSome = true ↔ s.toList ∈ Regex.numeral.language) ∧
    ∀ s : String, Decimal.isNumeric s.toList = true ↔
      (guard .sqlite).Holds (Decimal.beforeNul s.toList) := by
  refine ⟨numericColumn_eq, Regex.text_numeral, fun d s => ?_, fun s => ?_, fun s => ?_⟩
  · cases d with
    | postgres => exact Iff.rfl
    | sqlite => rw [guard_sqlite_iff, Regex.mem_numeral]
  · rw [Regex.mem_numeral, ← Decimal.isLiteral_iff, Literal.parse?]
    cases Decimal.isLiteral s.toList <;> simp
  · rw [guard_sqlite_iff, Decimal.isNumeric_iff]

end TxIndex
