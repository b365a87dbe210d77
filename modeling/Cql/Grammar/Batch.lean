/-
Batches.

A broken statement inside a batch is skipped up to the next keyword that begins a statement or ends
the batch.  What stands between is lost, but not the statements after it.

* `Grammar.batch` — the statement after BEGIN.
-/
import Cql.Grammar.Update

namespace Cql

/-- The keywords that begin a statement in a batch, and the one that ends the batch. -/
def TokenKind.isBatchBoundary : TokenKind → Bool
  | keyword .INSERT | keyword .UPDATE | keyword .DELETE | keyword .APPLY => true
  | _ => false

namespace Grammar

open Rule

/-- The rest of the statement that a keyword begins. -/
def modificationAfter? : TokenKind → Option (Rule Modification)
  | .keyword .INSERT => some (.insert <$> insertion)
  | .keyword .UPDATE => some (.update <$> update)
  | .keyword .DELETE => some (.delete <$> deletion)
  | _ => none

/-- Skips what is left of a broken statement. -/
def skipModification : Rule Unit := do
  if !(← kind).isBatchBoundary then
    advance
  skipUntil TokenKind.isBatchBoundary

/-- What a token in a batch begins: a statement, with a semicolon after it if there is one, or
something that cannot stand there. -/
def batchItem (opening : TokenKind) : Rule (Option Modification) := do
  match modificationAfter? opening with
  | some rule =>
    match ← attempt rule with
    | some modification =>
      let _ ← eatMark .semicolon
      return some modification
    | none =>
      skipModification
      return none
  | none =>
    report (.expected "INSERT, UPDATE or DELETE" "in batch" opening) (.token ((← position) - 1))
    skipUntil TokenKind.isBatchBoundary
    return none

/-- An optional `UNLOGGED | COUNTER`. -/
def batchMode : Rule BatchMode := do
  if ← eat .UNLOGGED then
    return .unlogged
  else if ← eat .COUNTER then
    return .counter
  else
    return .logged

/-- The statements of a batch. -/
def modifications : Rule (List Modification) := do
  let items ← many (fun kind => kind ≠ .keyword .APPLY && kind ≠ .endOfInput) (fun _ => true)
    fun opening => batchItem opening.kind
  return items.filterMap id

/-- What follows BEGIN: `mode? BATCH (USING ..)? (modification ';'?)+ APPLY BATCH`. -/
def batch : Rule Batch := do
  let mode ← batchMode
  keyword .BATCH "after BEGIN"
  let attributes ← usingClause
  let modifications ← modifications
  if modifications.isEmpty && (← kind) = .keyword .APPLY then
    reportExpected "INSERT, UPDATE or DELETE" "in batch"
  keyword .APPLY "to end batch"
  keyword .BATCH "after APPLY"
  return { mode, attributes, modifications }

end Grammar

end Cql
