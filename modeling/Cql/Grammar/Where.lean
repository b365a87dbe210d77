/-
WHERE clauses.

* `Grammar.relation` — one relation; a relation on a token whose two sides differ in length is
  reported and left out;
* `Grammar.relations` — the relations of a clause; a broken one is skipped.
-/
import Cql.Grammar.Name
import Cql.Grammar.Value
import Cql.Syntax.Relation

namespace Cql.Grammar

open Rule

/-- A comparison sign, `'=' | '<' | '<=' | '>' | '>='`. -/
def comparison : Rule Comparison :=
  accept
    (fun lexeme =>
      match lexeme.kind with
      | .punctuation mark => Comparison.ofMark? mark
      | _ => none)
    "comparison operator" "in relation"

/-- The rest of a relation on a token, `'(' columns ')' comparison (TOKEN '(' values ')' | value)`,
after the TOKEN with number `first`. -/
def tokenRelation (first : Nat) : Rule (Option Relation) := do
  symbol .leftParen "after TOKEN"
  let columns ← identifiers "in TOKEN column list"
  symbol .rightParen "to close TOKEN column list"
  let sign ← comparison
  if ← eat .TOKEN then
    symbol .leftParen "after TOKEN"
    let arguments ← values "in TOKEN arguments"
    symbol .rightParen "to close TOKEN arguments"
    if arguments.length = columns.length then
      return some (.token columns sign (.call arguments))
    else
      report .tokenArity (← since first)
      return none
  else
    return some (.token columns sign (.value (← value "in TOKEN relation")))

/-- One relation: `column IN '(' values ')'`, `column comparison value`, or one on a token. -/
def relation : Rule (Option Relation) := do
  let first ← position
  if ← eat .TOKEN then
    tokenRelation first
  else
    let column ← identifier "in relation"
    if ← eat .IN then
      symbol .leftParen "after IN"
      let members ← values "in IN list"
      symbol .rightParen "to close IN list"
      return some (.isIn column members)
    else
      let sign ← comparison
      return some (.compare column sign (← value "in relation"))

/-- The relations of a clause, `relation (AND relation)*`. -/
def relations : Rule (List Relation) :=
  gather (.keyword .AND) TokenKind.isClauseBoundary relation

end Cql.Grammar
