/-! # SQL dialects

The expressions in which the two databases differ: a text as a number, where it is one, a parameter
as a number, and the search for a text in another. Texts that are numbers are told by a regular
expression where the dialect has them. Where it has wildcard patterns only, the text must begin with
a digit, perhaps behind a minus sign, and match none of the patterns for what a number is not. -/
namespace TxIndex

/-- A kind of SQL database. -/
inductive Dialect where
  | postgres
  | sqlite
deriving DecidableEq

namespace Dialect

/-- The name of the database. -/
def name : Dialect → String
  | .postgres => "postgres"
  | .sqlite => "sqlite"

/-- A number begins in one of these ways. -/
def leadPatterns : List String := ["[0-9]*", "-[0-9]*"]

/-- No number matches one of these: a character that is no digit, point or dash, a dash that does
not lead, a second point, a point at the end. -/
def refusedPatterns : List String := ["*[^0-9.-]*", "?*-*", "*.*.*", "*."]

/-- The test that a text is a number, by patterns. -/
def patternTest (expr : String) : String :=
  "(" ++ String.intercalate " OR " (leadPatterns.map fun p => s!"{expr} GLOB '{p}'") ++ ")" ++
    String.join (refusedPatterns.map fun p => s!" AND {expr} NOT GLOB '{p}'")

/-- A text as a number, null where it is none. -/
def numericColumn (d : Dialect) (expr : String) : String :=
  match d with
  | .postgres =>
    s!"(CASE WHEN {expr} ~ '^-?[0-9]+(\\.[0-9]+)?$' THEN CAST({expr} AS NUMERIC) END)"
  | .sqlite => s!"(CASE WHEN {patternTest expr} THEN CAST({expr} AS REAL) END)"

/-- A text parameter as a number. -/
def numericParam (d : Dialect) (param : String) : String :=
  match d with
  | .postgres => s!"CAST({param} AS NUMERIC)"
  | .sqlite => s!"CAST({param} AS REAL)"

/-- The first text contains the second. -/
def contains (d : Dialect) (haystack needle : String) : String :=
  match d with
  | .postgres => s!"strpos({haystack}, {needle}) > 0"
  | .sqlite => s!"instr({haystack}, {needle}) > 0"

end Dialect
end TxIndex
