/-
Statements and whole queries.

* `Grammar.statement` — one statement, told by its first keyword;
* `Grammar.query` — a statement with semicolons around it, up to the end of the input.
-/
import Cql.Grammar.Batch
import Cql.Grammar.Permission
import Cql.Grammar.Schema
import Cql.Grammar.Select

namespace Cql.Grammar

open Rule

/-- The rest of the statement that a keyword begins. -/
def statementAfter? : TokenKind → Option (Rule Statement)
  | .keyword .SELECT => some (.select <$> selection)
  | .keyword .INSERT => some (.insert <$> insertion)
  | .keyword .UPDATE => some (.update <$> update)
  | .keyword .DELETE => some (.delete <$> deletion)
  | .keyword .BEGIN => some (.batch <$> batch)
  | .keyword .USE => some (.use <$> keyspaceName)
  | .keyword .TRUNCATE => some (.truncate <$> tableName)
  | .keyword .CREATE => some create
  | .keyword .DROP => some drop
  | .keyword .ALTER => some alter
  | .keyword .GRANT => some (.grant <$> grant)
  | .keyword .REVOKE => some (.revoke <$> revocation)
  | .keyword .LIST => some (.listGrants <$> grantsOfUser)
  | _ => none

def statement : Rule Statement := do
  match statementAfter? (← kind) with
  | some rest =>
    advance
    rest
  | none => expected "statement" ""

/-- A statement, and the stretch of tokens that it takes.  Whatever else follows is reported. -/
def query : Rule (Statement × Place) := do
  semicolons
  let first ← position
  let statement ← statement
  let place ← since first
  semicolons
  if (← kind) ≠ .endOfInput then
    report (.trailing (← kind)) (← here)
  return (statement, place)

end Cql.Grammar
