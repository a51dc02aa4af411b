import TxIndex.Plan
import TxIndex.Sql.Dialect

/-! # Search statements

A plan as a SQL statement and its arguments. The text is made of fixed parts, operators and numbered
placeholders; tags, texts, numbers and heights go into the arguments. The placeholders are numbered
in the order in which they stand in the text: first those of the window, then for each condition
that of its tag and that of its argument. -/
namespace TxIndex
namespace Sql

/-- An argument of a statement. -/
inductive Arg where
  | int (n : Int64)
  | text (s : String)
deriving DecidableEq

/-- A statement with its arguments; `$1` stands for the first. -/
structure Statement where
  text : String
  args : List Arg
deriving DecidableEq

/-- The place of the argument of a number. -/
def placeholder (n : Nat) : String := s!"${n}"

/-- The comparisons of the height, of which the first has the given number. -/
def heightClauses : Nat → List (Comparison × Int64) → List String
  | _, [] => []
  | n, (c, _) :: rest => s!"tr.height {c.symbol} {placeholder n}" :: heightClauses (n + 1) rest

/-- The arguments of a test. -/
def testArgs : Test → List Arg
  | .present => []
  | .contains needle => [.text needle]
  | .text _ s => [.text s]
  | .number _ n => [.text n.text]

/-- What a test asks of the value, its argument having the given number. -/
def predicate (d : Dialect) (n : Nat) : Test → String
  | .present => ""
  | .contains _ => " AND " ++ d.contains "a.value" (placeholder n)
  | .text c _ => s!" AND a.value {c.symbol} {placeholder n}"
  | .number c _ =>
    " AND " ++ d.numericColumn "a.value" ++ s!" {c.symbol} " ++ d.numericParam (placeholder n)

/-- The transaction has an attribute as a condition asks. -/
def semiJoin (d : Dialect) (n : Nat) (c : Condition) : String :=
  "EXISTS (SELECT 1 FROM events e JOIN attributes a ON a.event_id = e.rowid " ++
    s!"WHERE e.tx_id = c.tx_id AND a.composite_key = {placeholder n}" ++
    predicate d (n + 1) c.test ++ ")"

/-- The arguments of a condition. -/
def conditionArgs (c : Condition) : List Arg := .text c.tag :: testArgs c.test

/-- The conditions, of which the first argument has the given number. -/
def semiJoins (d : Dialect) : Nat → List Condition → List String
  | _, [] => []
  | n, c :: cs => semiJoin d n c :: semiJoins d (n + (conditionArgs c).length) cs

/-- The conditions as a clause. -/
def whereClause (joins : List String) : String :=
  if joins.isEmpty then "" else "WHERE " ++ String.intercalate "\n      AND " joins

/-- The lines of the statement. -/
def lines (height filters : String) (limit : UInt16) : List String := [
  "WITH candidate_txs AS (",
  "    SELECT tr.rowid AS tx_id, tr.height",
  "    FROM tx_results tr",
  "    JOIN tx_requests req ON req.block_id = tr.block_id AND req.\"index\" = tr.\"index\"",
  "    WHERE " ++ height,
  "),",
  "matched_txs AS (",
  "    SELECT c.tx_id, c.height",
  "    FROM candidate_txs c",
  "    " ++ filters,
  "    ORDER BY c.height DESC, c.tx_id DESC",
  s!"    LIMIT {limit}",
  ")",
  "SELECT tr.height, req.created_at, tr.tx_hash, req.messages, req.memo, req.fee, tr.tx_result",
  "FROM matched_txs m",
  "JOIN tx_results tr ON tr.rowid = m.tx_id",
  "JOIN tx_requests req ON req.block_id = tr.block_id AND req.\"index\" = tr.\"index\"",
  "ORDER BY m.height DESC, m.tx_id DESC"]

end Sql

namespace Plan

open Sql

/-- The plan as a statement, the tip of the chain being given where the plan needs it. -/
def render (p : Plan) (d : Dialect) (tip : Option Int64) : Except Failure Statement :=
  match p.window.bounds? tip with
  | none => .error (.query "tip height required")
  | some bounds =>
    let height := String.intercalate " AND " (heightClauses 1 bounds)
    let filters := whereClause (semiJoins d (bounds.length + 1) p.filters)
    .ok ⟨String.intercalate "\n" (lines height filters p.limit),
      bounds.map (fun (_, value) => .int value) ++ p.filters.flatMap conditionArgs⟩

end Plan
end TxIndex
