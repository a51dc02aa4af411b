import TxIndex.Proofs.Text.Cuts
import TxIndex.Query.Parser

/-! # Scanning a query byte by byte

The reader of queries hands on the characters that are left. A scanner of the same language never
sees characters: it holds the bytes of the source and a place among them, looks at single bytes,
slices texts out of the source, and moves on. Much can go wrong with this that cannot go wrong with
characters: a slice at a place inside a character ends the run at once, and the loop over the
conditions need not get on. Both show as a run without a result, for the loop however many rounds it
is granted.

The cursor keeps a log of the places at which it has stood, and of those at which it began a
condition; no step reads the log. -/
namespace TxIndex
namespace Query

/-- The place of a scan, and the log behind it, newest places first. -/
structure Cursor where
  /-- The number of bytes before the place. -/
  pos : Nat
  /-- The earlier places. -/
  past : List Nat
  /-- The places at which a condition has begun. -/
  rounds : List Nat
deriving DecidableEq

/-- All places of the cursor so far. -/
def Cursor.trail (c : Cursor) : List Nat := c.pos :: c.past

/-- A scan answers or refuses, and leaves the cursor where it stopped in either case. It has no
result if it slices inside a character, or has not ended after the rounds that it may make. -/
abbrev Scan := ExceptT Fault (StateT Cursor Option)

/-- A class of characters of one byte, as a class of bytes. -/
def onByte (p : Char → Bool) (b : UInt8) : Bool := b < 0x80 && p (Char.ofNat b.toNat)

namespace Scan

def here : Scan Nat := do
  return (← get).pos

def moveTo (pos : Nat) : Scan Unit :=
  modify fun c => { c with pos := pos, past := c.pos :: c.past }

/-- Logs that a condition begins. -/
def beginRound : Scan Unit :=
  modify fun c => { c with rounds := c.pos :: c.rounds }

variable (source : String)

/-- Moves over bytes as long as they are of a class, one at a time. -/
def passOver (p : Char → Bool) : List UInt8 → Scan Unit
  | [] => return ()
  | b :: bytes => do
    if onByte p b then
      let pos ← here
      moveTo (pos + 1)
      passOver p bytes
    else return ()

def passWhile (p : Char → Bool) : Scan Unit := do
  let pos ← here
  passOver p ((Utf8.encode source).drop pos)

/-- Moves over bytes of a class, and slices them out. -/
def takeWhile (p : Char → Bool) : Scan String := do
  let start ← here
  passWhile source p
  let stop ← here
  Utf8.slice source start stop

def skipBlanks : Scan Unit := do
  let _ ← takeWhile source isBlank
  return ()

/-- What is left, sliced out. -/
def rest : Scan String := do
  let pos ← here
  Utf8.slice source pos source.utf8ByteSize

def atEnd : Scan Bool := do
  let pos ← here
  return source.utf8ByteSize ≤ pos

/-- Whether what is left begins with a symbol. -/
def sees (symbol : String) : Scan Bool := do
  let rest ← rest source
  return (Utf8.encode symbol).isPrefixOf (Utf8.encode rest)

/-- Moves over a word, if it stands here and does not run on into a tag. That as many bytes as the
word has may end inside a character is no fault: the word does not stand here then. -/
def keyword (word : String) : Scan Bool := do
  let rest ← rest source
  match Utf8.slice rest 0 word.utf8ByteSize with
  | none => return false
  | some head =>
    if head.toList.map Char.toUpper = word.toList ∧
        ¬ (Utf8.encode rest)[word.utf8ByteSize]?.any (onByte isTagChar) then
      let pos ← here
      moveTo (pos + word.utf8ByteSize)
      return true
    else return false

/-- Moves over the first of some comparisons whose symbol stands here. -/
def comparisonAmong : List Comparison → Scan Comparison
  | [] => throw .expectedOperator
  | o :: others => do
    if ← sees source o.symbol then
      let pos ← here
      moveTo (pos + o.symbol.utf8ByteSize)
      return o
    else comparisonAmong others

/-- Moves over a comparison, the longer symbols first. -/
def comparison : Scan Comparison := comparisonAmong source [.le, .ge, .lt, .gt, .eq]

/-- Moves over an argument. The end of a text is found by its byte. -/
def argument : Scan Argument := do
  if ← sees source "'" then
    let pos ← here
    let start := pos + 1
    let tail ← Utf8.slice source start source.utf8ByteSize
    match (Utf8.encode tail).findIdx? (· = 0x27) with
    | none => throw .unterminatedText
    | some length =>
      moveTo (start + length + 1)
      let text ← Utf8.slice source start (start + length)
      return .text text
  else
    let literal ← takeWhile source isNumberChar
    match Literal.parse? literal with
    | none => throw .expectedValue
    | some n => return .number n

/-- What contains an argument, which must be a text. -/
def containing (tag : String) : Argument → Scan Condition
  | .text needle => return Condition.contains tag needle
  | .number _ => throw .containsNeedsText

/-- Moves over what follows a tag. -/
def test (tag : String) : Scan Condition := do
  if ← keyword source "EXISTS" then
    return Condition.present tag
  else if ← keyword source "CONTAINS" then
    skipBlanks source
    let arg ← argument source
    containing tag arg
  else
    let o ← comparison source
    skipBlanks source
    let arg ← argument source
    return Condition.compare o tag arg

/-- Moves over a condition. -/
def condition : Scan Condition := do
  skipBlanks source
  let tag ← takeWhile source isTagChar
  if tag = "" then throw .expectedTag
  else
    skipBlanks source
    test source tag

/-- Moves over conditions joined by `AND`, up to the end, in at most so many rounds. -/
def conditions : Nat → Scan (List Condition)
  | 0 => (none : Option (List Condition))
  | n + 1 => do
    beginRound
    let c ← condition source
    skipBlanks source
    if ← atEnd source then return [c]
    else if ← keyword source "AND" then
      let others ← conditions n
      return c :: others
    else throw .expectedAnd

end Scan

/-- The scan of a source from its start, in at most so many rounds: the conditions or what is
missed, and where the cursor stopped. -/
def scan (source : String) (rounds : Nat) : Option (Except Fault (List Condition) × Cursor) :=
  (Scan.conditions source rounds).run.run ⟨0, [], []⟩

/-! ## Single steps -/

variable {α β : Type}

theorem run_bind (f : Scan α) (k : α → Scan β) (c : Cursor) :
    (f >>= k).run.run c = (f.run.run c).bind fun (answer, c') =>
      match answer with
      | .ok a => (k a).run.run c'
      | .error fault => some (.error fault, c') := by
  change (f c).bind _ = (f c).bind _
  cases f c with
  | none => rfl
  | some r => obtain ⟨_ | _, _⟩ := r <;> rfl

theorem run_pure (a : α) (c : Cursor) : (pure a : Scan α).run.run c = some (.ok a, c) := rfl

theorem run_here (c : Cursor) : Scan.here.run.run c = some (.ok c.pos, c) := rfl

theorem run_moveTo (pos : Nat) (c : Cursor) :
    (Scan.moveTo pos).run.run c = some (.ok (), { c with pos := pos, past := c.trail }) := rfl

theorem run_beginRound (c : Cursor) :
    Scan.beginRound.run.run c = some (.ok (), { c with rounds := c.pos :: c.rounds }) := rfl

theorem run_slice (part : String) (c : Cursor) :
    (liftM (some part) : Scan String).run.run c = some (.ok part, c) := rfl

end Query
end TxIndex
