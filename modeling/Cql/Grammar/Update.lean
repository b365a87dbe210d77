/-
UPDATE.

A counter may be changed without a sign, `visits = visits -3`, since the lexer reads `-3` as one
number.  A positive number there lacks its sign, which ends the parse.

* `Grammar.assignment` — one assignment of the SET clause;
* `Grammar.update` — the statement after its keyword.
-/
import Cql.Grammar.Modification

namespace Cql.Grammar

open Rule

/-- Is the number that an integer literal spells zero or below? -/
def isNonPositive (digits : String) : Bool :=
  digits.toList.head? = some '-' || digits.toList.all (· = '0')

/-- An integer literal without its sign. -/
def magnitude (digits : String) : String :=
  if digits.toList.head? = some '-' then String.ofList (digits.toList.drop 1) else digits

/-- Only a minus sign is taken away. -/
theorem magnitude_eq_iff {digits amount : String} : magnitude digits = amount ↔
    digits = "-" ++ amount ∨ digits.toList.head? ≠ some '-' ∧ digits = amount := by
  unfold magnitude
  by_cases negative : digits.toList.head? = some '-'
  · obtain ⟨rest, split⟩ : ∃ rest, digits.toList = '-' :: rest := List.head?_eq_some_iff.1 negative
    rw [if_pos negative, split, ← String.toList_inj, ← String.toList_inj, String.toList_append, split]
    simp
  · rw [if_neg negative]
    constructor
    · exact fun same => .inr ⟨negative, same⟩
    · rintro (rfl | ⟨-, same⟩)
      · exact absurd (by simp) negative
      · exact same

/-- The rest of `column '[' key ']' '=' value` after its opening bracket. -/
def elementAssignment : Rule Operation := do
  let key ← elementKey
  symbol .equal "in assignment"
  return .element key (← value "in assignment")

/-- What follows `column '='` if no name does: `value ('+' column)?`. -/
def plainAssignment (column : Identifier) : Rule Operation := do
  let assigned ← value "in assignment"
  if ← eatMark .plus then
    let place ← here
    let other ← identifier "after '+'"
    if other != column then
      report .prependsToOther place
    return .listPrepend assigned
  else
    return .assign assigned

/-- The value after `column '=' column sign`.  `checkColumns` complains if the columns differ. -/
def signedChange (sign : Sign) (checkColumns : Rule Unit) : Rule Operation := do
  advance
  let place ← here
  let operand ← value "after operator"
  checkColumns
  match Operation.delta sign operand with
  | .ok operation => return operation
  | .error fault => fail (.delta fault) place

/-- An integer literal right after `column '=' column`. -/
def unsignedChange (digits : String) (checkColumns : Rule Unit) : Rule Operation := do
  let place ← here
  advance
  checkColumns
  if isNonPositive digits then
    return .counterDecrement (.integer (magnitude digits))
  else
    abort (.missingMinus digits) place

/-- What follows `column '='` if a name does: `column (sign value | INTEGER | '?')`. -/
def selfAssignment (column : Identifier) : Rule Operation := do
  let place ← here
  let other ← identifier "in assignment"
  let checkColumns : Rule Unit := if other == column then pure () else report .startsFromOther place
  match ← kind with
  | .punctuation .plus => signedChange .plus checkColumns
  | .punctuation .minus => signedChange .minus checkColumns
  | .integer digits => unsignedChange digits checkColumns
  | .punctuation .questionMark =>
    let amount ← scalar "in assignment"
    checkColumns
    return .counterDecrement amount
  | _ => expected "'+' or '-'" ("after " ++ other.render)

/-- One assignment, of one of these forms:
```text
column '[' key ']' '=' value
column '=' value ('+' column)?
column '=' column (('+' | '-') value | INTEGER | '?')
``` -/
def assignment : Rule (Identifier × Operation) := do
  let column ← identifier "in SET clause"
  if ← eatMark .leftBracket then
    return (column, ← elementAssignment)
  symbol .equal "in assignment"
  if (← kind).isNameLike then
    return (column, ← selfAssignment column)
  else
    return (column, ← plainAssignment column)

/-- The assignments of a clause, `assignment (',' assignment)*`. -/
def assignments : Rule (List (Identifier × Operation)) :=
  gather (.punctuation .comma) TokenKind.isClauseBoundary (some <$> assignment)

/-- What follows UPDATE: `table (USING ..)? SET assignments WHERE relations`. -/
def update : Rule Update := do
  let table ← tableName
  let attributes ← usingClause
  keyword .SET "in UPDATE"
  let operations ← assignments
  keyword .WHERE "in UPDATE"
  let relations ← relations
  return { table, attributes, operations, relations }

end Cql.Grammar
