/-
SELECT.

`COUNT`, `WRITETIME` and `TTL` are functions in front of a parenthesis and names of columns
elsewhere.

* `Grammar.projection` — what is selected;
* `Grammar.selection` — the statement after its keyword.
-/
import Cql.Grammar.Where
import Cql.Syntax.Statement

namespace Cql.Grammar

open Rule

/-- Is the current token the given keyword, with an opening parenthesis after it? -/
def atFunction (name : Keyword) : Rule Bool := do
  let current ← kind
  let next ← nextKind
  return current = .keyword name && next = .punctuation .leftParen

/-- An integer, as it is written. -/
def integerText (context : String) : Rule String :=
  accept
    (fun lexeme =>
      match lexeme.kind with
      | .integer _ => some lexeme.text
      | _ => none)
    "integer" context

/-- What is counted, `'*' | INTEGER`.  An integer other than `1` is reported and read as `*`. -/
def countArgument : Rule Unit := do
  if ← eatMark .star then
    return
  let place ← here
  let text ← integerText "or * in COUNT"
  if text ≠ "1" then
    report (.countArgument text) place

/-- The argument of a function of one column, with its parentheses. -/
def functionArgument : Rule Identifier := do
  symbol .leftParen ""
  let column ← identifier "as function argument"
  symbol .rightParen "to close function call"
  return column

/-- One item, `column | WRITETIME '(' column ')' | TTL '(' column ')'`. -/
def selector : Rule Selector := do
  if ← atFunction .WRITETIME then
    advance
    return .writeTime (← functionArgument)
  else if ← atFunction .TTL then
    advance
    return .ttl (← functionArgument)
  else
    return .column (← identifier "in selection")

/-- What is selected, `COUNT '(' ('*' | INTEGER) ')' | '*' | selector (',' selector)*`. -/
def projection : Rule Projection := do
  if ← atFunction .COUNT then
    advance
    symbol .leftParen ""
    countArgument
    symbol .rightParen "to close COUNT"
    return .count
  else if ← eatMark .star then
    return .everything
  else
    return .items (← commaSeparated selector)

/-- An optional `ASC | DESC`, ascending where nothing is said. -/
def direction : Rule Direction := do
  if ← eat .DESC then
    return .descending
  else
    let _ ← eat .ASC
    return .ascending

/-- A column with its direction, `column (ASC | DESC)?`. -/
def ordering : Rule (Identifier × Direction) := do
  let column ← identifier "in ORDER BY"
  return (column, ← direction)

/-- An optional `ORDER BY ordering (',' ordering)*`. -/
def orderClause : Rule ColumnOrder := do
  if ← eat .ORDER then
    keyword .BY "after ORDER"
    return .ofList (← commaSeparated ordering)
  else
    return .empty

/-- An optional `LIMIT INTEGER`.  A limit out of range is reported and counts as none. -/
def limitClause : Rule Int := do
  if ← eat .LIMIT then
    let place ← here
    let text ← integerText "after LIMIT"
    match Integer.bounded? 32 text with
    | some limit => return limit
    | none =>
      report (.limitOutOfRange text) place
      return Selection.defaultLimit
  else
    return Selection.defaultLimit

/-- An optional `ALLOW FILTERING`. -/
def filteringClause : Rule Bool := do
  if ← eat .ALLOW then
    keyword .FILTERING "after ALLOW"
    return true
  else
    return false

/-- What follows SELECT: `projection FROM table (WHERE relations)?` and the optional clauses. -/
def selection : Rule Selection := do
  let projection ← projection
  keyword .FROM "after selection"
  let table ← tableName
  let relations ← if ← eat .WHERE then relations else pure []
  let orderings ← orderClause
  let limit ← limitClause
  let allowFiltering ← filteringClause
  return { table, projection, relations, orderings, limit, allowFiltering }

end Cql.Grammar
