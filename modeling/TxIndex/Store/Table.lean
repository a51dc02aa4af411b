/-! # Tables

A table holds rows in the order in which they were inserted. Rows are never taken out, so the number
of a row, counted from 1, is its identity. -/
namespace TxIndex

/-- Rows in the order of insertion. -/
structure Table (ρ : Type) where
  rows : List ρ
deriving DecidableEq

namespace Table

variable {ρ : Type}

/-- The table without rows. -/
def empty : Table ρ := ⟨[]⟩

/-- The number of rows. -/
def size (t : Table ρ) : Nat := t.rows.length

/-- The table with one more row. -/
def insert (t : Table ρ) (row : ρ) : Table ρ := ⟨t.rows ++ [row]⟩

/-- The table with more rows. -/
def insertAll (t : Table ρ) (rows : List ρ) : Table ρ := ⟨t.rows ++ rows⟩

/-- The number that the next row will have. -/
def nextId (t : Table ρ) : Nat := t.size + 1

/-- The rows with their numbers. -/
def numbered (t : Table ρ) : List (ρ × Nat) := t.rows.zipIdx 1

/-- The row of a number. -/
def get? (t : Table ρ) : Nat → Option ρ
  | 0 => none
  | i + 1 => t.rows[i]?

/-- The number of the first row with a property. -/
def findId? (t : Table ρ) (p : ρ → Bool) : Option Nat := (t.rows.findIdx? p).map (· + 1)

@[simp] theorem rows_empty : (empty : Table ρ).rows = [] := rfl

@[simp] theorem rows_insert (t : Table ρ) (row : ρ) : (t.insert row).rows = t.rows ++ [row] := rfl

@[simp] theorem rows_insertAll (t : Table ρ) (rows : List ρ) :
    (t.insertAll rows).rows = t.rows ++ rows := rfl

@[simp] theorem size_empty : (empty : Table ρ).size = 0 := rfl

@[simp] theorem size_insert (t : Table ρ) (row : ρ) : (t.insert row).size = t.size + 1 := by
  simp [size]

end Table
end TxIndex
