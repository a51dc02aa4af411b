import Mathlib.Data.List.Chain
import TxIndex.Proofs.Text.Numerals
import TxIndex.Sql.Statement

/-! # Placeholders

How a database reads a statement: every dollar sign with digits behind it is a placeholder, and the
argument of that number stands in its place (`Sql.Statement.filled`). A statement can be written the
other way round, from pieces among which the arguments have their places already: each argument is
written as the next number (`Sql.written`). As long as no character could be taken for part of a
placeholder (`Sql.Apart`), the statement is then read as the pieces, and its placeholders are
numbered in their order (`Sql.Statement.filled_of_written`). -/
namespace TxIndex
namespace Sql

/-- What a text is made of: characters, and placeholders by the digits of their numbers. -/
inductive Token where
  | char (c : Char)
  | placeholder (digits : List Char)
deriving DecidableEq

/-- The tokens of a text. A placeholder takes all the digits behind its dollar sign. -/
def tokens : List Char → List Token
  | [] => []
  | c :: cs =>
    if c = '$' ∧ cs.takeWhile Char.isDigit ≠ [] then
      .placeholder (cs.takeWhile Char.isDigit) :: tokens (cs.dropWhile Char.isDigit)
    else .char c :: tokens cs
termination_by cs => cs.length
decreasing_by
  · have := (List.dropWhile_sublist Char.isDigit (l := cs)).length_le
    simp only [List.length_cons]
    omega
  · simp

/-- A piece of a statement: a character, or an argument in its place. -/
inductive Piece where
  | char (c : Char)
  | arg (a : Arg)
deriving DecidableEq

namespace Piece

/-- The argument that a piece is, if it is one. -/
def arg? : Piece → Option Arg
  | char _ => none
  | arg a => some a

/-- A placeholder begins with the piece. -/
def opens : Piece → Bool
  | char c => c = '$'
  | arg _ => true

/-- The piece could continue the number of a placeholder. -/
def isDigit : Piece → Bool
  | char c => c.isDigit
  | arg _ => false

end Piece

/-- A fixed text as pieces. -/
def fixed (s : String) : List Piece := s.toList.map .char

/-- The placeholders of a text in their order. -/
def Statement.placeholders (st : Statement) : List (List Char) :=
  (tokens st.text.toList).filterMap fun
    | .char _ => none
    | .placeholder digits => some digits

/-- The piece that a token stands for, the arguments being given. -/
def Token.piece? (args : List Arg) : Token → Option Piece
  | .char c => some (.char c)
  | .placeholder digits =>
    match Decimal.digitsValue digits with
    | 0 => none
    | n + 1 => args[n]?.map .arg

/-- The statement with the arguments in place, if every placeholder has one. -/
def Statement.filled (st : Statement) : Option (List Piece) :=
  (tokens st.text.toList).mapM (Token.piece? st.args)

/-- The arguments among pieces. -/
def argsOf (ps : List Piece) : List Arg := ps.filterMap Piece.arg?

/-- Pieces as a text, the first argument being written as the placeholder of the given number. -/
def written : Nat → List Piece → List Char
  | _, [] => []
  | n, .char c :: ps => c :: written n ps
  | n, .arg _ :: ps => '$' :: (Nat.toDigits 10 n ++ written (n + 1) ps)

/-- No digit follows what begins a placeholder, so that none is read where none was written, and
none goes further than it was written. -/
def Apart (ps : List Piece) : Prop := ps.IsChain fun p p' => p.opens = true → p'.isDigit = false

variable {ps ps' : List Piece} {n : Nat}

theorem argsOf_append : argsOf (ps ++ ps') = argsOf ps ++ argsOf ps' := List.filterMap_append

@[simp] theorem argsOf_fixed (s : String) : argsOf (fixed s) = [] := by
  simp [argsOf, fixed, List.filterMap_map, Function.comp_def, Piece.arg?]

theorem written_append :
    written n (ps ++ ps') = written n ps ++ written (n + (argsOf ps).length) ps' := by
  induction ps generalizing n with
  | nil => rfl
  | cons p ps ih =>
    cases p with
    | char c =>
      rw [List.cons_append, written, ih]
      rfl
    | arg a =>
      have hlength : (argsOf (.arg a :: ps)).length = (argsOf ps).length + 1 := rfl
      rw [List.cons_append, written, ih, written, hlength, List.cons_append, List.append_assoc,
        Nat.add_comm (argsOf ps).length 1, ← Nat.add_assoc]

@[simp] theorem written_fixed (s : String) : written n (fixed s) = s.toList := by
  unfold fixed
  induction s.toList with
  | nil => rfl
  | cons c cs ih => rw [List.map_cons, written, ih]

theorem placeholder_toList (n : Nat) : (placeholder n).toList = '$' :: Nat.toDigits 10 n := by
  show ("$" ++ Nat.repr n).toList = _
  rw [String.toList_append, Nat.toList_repr]
  rfl

/-! ## Reading what is written -/

theorem tokens_char {c : Char} {cs : List Char}
    (h : c = '$' → ∀ c' ∈ cs.head?, c'.isDigit = false) :
    tokens (c :: cs) = .char c :: tokens cs := by
  rw [tokens, if_neg]
  rintro ⟨hc, hdigits⟩
  apply hdigits
  cases cs with
  | nil => rfl
  | cons c' cs => exact List.takeWhile_cons_of_neg (by simp [h hc c' rfl])

/-- A placeholder is read up to where its number ends. -/
theorem tokens_placeholder {digits cs : List Char} (hdigits : Decimal.IsRun digits)
    (h : ∀ c ∈ cs.head?, c.isDigit = false) :
    tokens ('$' :: (digits ++ cs)) = .placeholder digits :: tokens cs := by
  have hstop : cs.takeWhile Char.isDigit = [] ∧ cs.dropWhile Char.isDigit = cs := by
    cases cs with
    | nil => exact ⟨rfl, rfl⟩
    | cons c cs =>
      have hc : ¬ c.isDigit = true := by simp [h c rfl]
      exact ⟨List.takeWhile_cons_of_neg hc, List.dropWhile_cons_of_neg hc⟩
  have htake : (digits ++ cs).takeWhile Char.isDigit = digits := by
    rw [List.takeWhile_append_of_pos hdigits.2, hstop.1, List.append_nil]
  have hdrop : (digits ++ cs).dropWhile Char.isDigit = cs := by
    rw [List.dropWhile_append_of_pos hdigits.2, hstop.2]
  rw [tokens, htake, hdrop, if_pos ⟨rfl, hdigits.1⟩]

/-- The text of pieces begins with a digit only if the pieces do. -/
theorem head?_written {c : Char} (hc : c ∈ (written n ps).head?) (h : c.isDigit = true) :
    ∃ p ∈ ps.head?, p.isDigit = true := by
  cases ps with
  | nil => simp [written] at hc
  | cons p ps =>
    cases p with
    | char c' =>
      obtain rfl : c' = c := by simpa [written] using hc
      exact ⟨_, rfl, h⟩
    | arg a =>
      obtain rfl : '$' = c := by simpa [written] using hc
      exact absurd h (by decide)

theorem Apart.tail {p : Piece} (h : Apart (p :: ps)) : Apart ps := List.IsChain.tail h

/-- What follows an opening piece is written without a leading digit. -/
theorem Apart.not_isDigit {p : Piece} (h : Apart (p :: ps)) (hp : p.opens = true) :
    ∀ c ∈ (written n ps).head?, c.isDigit = false := by
  intro c hc
  by_contra hdigit
  obtain ⟨p', hp', hdigit'⟩ := head?_written hc (by simpa using hdigit)
  cases ps with
  | nil => simp at hp'
  | cons p'' ps =>
    obtain rfl : p'' = p' := by simpa using hp'
    exact nomatch hdigit'.symm.trans ((List.isChain_cons_cons.1 h).1 hp)

/-- The placeholders of written pieces are numbered in their order. -/
theorem placeholders_written (h : Apart ps) :
    ((tokens (written n ps)).filterMap fun
      | .char _ => none
      | .placeholder digits => some digits) =
      (List.range' n (argsOf ps).length).map (Nat.toDigits 10) := by
  induction ps generalizing n with
  | nil => simp [written, tokens, argsOf]
  | cons p ps ih =>
    cases p with
    | char c =>
      rw [written, tokens_char fun hc => h.not_isDigit (by simpa [Piece.opens] using hc)]
      exact ih h.tail
    | arg a =>
      rw [written, tokens_placeholder (Decimal.isRun_toDigits n) (h.not_isDigit rfl),
        List.filterMap_cons]
      have hlength : (argsOf (.arg a :: ps)).length = (argsOf ps).length + 1 := rfl
      rw [hlength, List.range'_succ, List.map_cons, ← ih h.tail]

/-- Each placeholder of written pieces is filled with the argument that was written as it, the
arguments before being those of pieces further in front. -/
theorem fill_written (h : Apart ps) (before : List Arg) :
    (tokens (written (before.length + 1) ps)).mapM (Token.piece? (before ++ argsOf ps)) =
      some ps := by
  induction ps generalizing before with
  | nil => simp [written, tokens]
  | cons p ps ih =>
    cases p with
    | char c =>
      rw [written, tokens_char fun hc => h.not_isDigit (by simpa [Piece.opens] using hc),
        List.mapM_cons]
      have hrest := ih h.tail before
      have hargs : argsOf (.char c :: ps) = argsOf ps := rfl
      rw [hargs, hrest]
      rfl
    | arg a =>
      rw [written, tokens_placeholder (Decimal.isRun_toDigits _) (h.not_isDigit rfl),
        List.mapM_cons]
      have hrest := ih h.tail (before ++ [a])
      have hargs : before ++ argsOf (.arg a :: ps) = before ++ [a] ++ argsOf ps := by
        rw [List.append_assoc]
        rfl
      have hpiece : Token.piece? (before ++ [a] ++ argsOf ps)
          (.placeholder (Nat.toDigits 10 (before.length + 1))) = some (.arg a) := by
        simp [Token.piece?, Decimal.digitsValue_toDigits]
      rw [List.length_append, List.length_singleton] at hrest
      rw [hargs, hpiece, hrest]
      rfl

/-- **A statement is read as it was written.** Filling in arguments undoes the writing of
placeholders, as no digit stands right behind a placeholder. -/
theorem Statement.filled_of_written {st : Statement} (htext : st.text.toList = written 1 ps)
    (hargs : st.args = argsOf ps) (h : Apart ps) :
    st.placeholders = (List.range' 1 st.args.length).map (Nat.toDigits 10) ∧
      st.filled = some ps := by
  refine ⟨?_, ?_⟩
  · rw [placeholders, htext, hargs]
    exact placeholders_written h
  · rw [filled, htext, hargs]
    exact fill_written h []

end Sql
end TxIndex
