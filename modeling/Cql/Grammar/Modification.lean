/-
INSERT, DELETE and the clauses that they share with UPDATE.

* `Grammar.usingClause` — the attributes of a statement; a later TTL or TIMESTAMP replaces an earlier
  one;
* `Grammar.insertion`, `Grammar.deletion` — the statements after their keywords.
-/
import Cql.Grammar.Where
import Cql.Syntax.Modification

namespace Cql

/-- The keywords that begin an objective of a USING clause. -/
def TokenKind.isObjective : TokenKind → Bool
  | keyword .TTL | keyword .TIMESTAMP => true
  | _ => false

theorem TokenKind.isObjective_iff {kind : TokenKind} :
    kind.isObjective = true ↔ kind = .keyword .TTL ∨ kind = .keyword .TIMESTAMP := by
  unfold isObjective
  split <;> simp_all

namespace Attributes

/-- Sets what an objective stands for. -/
def set (attributes : Attributes) (objective : TokenKind) (term : Term) : Attributes :=
  if objective = .keyword .TTL then { attributes with timeToLive := some term }
  else { attributes with timestamp := some term }

variable (attributes : Attributes) (objective : TokenKind) (term : Term)

theorem timeToLive_set : (attributes.set objective term).timeToLive =
    if objective = .keyword .TTL then some term else attributes.timeToLive := by
  unfold set
  split <;> rfl

theorem timestamp_set : (attributes.set objective term).timestamp =
    if objective = .keyword .TTL then attributes.timestamp else some term := by
  unfold set
  split <;> rfl

/-- What objectives come to, when later ones replace earlier ones. -/
def setAll (settings : List (TokenKind × Term)) : Attributes :=
  settings.foldl (fun attributes setting => attributes.set setting.1 setting.2) attributes

end Attributes

namespace Grammar

open Rule

/-- The value of an objective, and an AND after it if another objective follows. -/
def objectiveValue (objective : TokenKind) : Rule Term := do
  let term ← integerOrMarker ("after " ++ objective.render)
  let current ← kind
  let next ← nextKind
  if current = .keyword .AND && next.isObjective then
    advance
  return term

/-- Objectives, `objective (AND? objective)*`, each of them TTL or TIMESTAMP with its value. -/
def objectives : Rule Attributes := do
  if !(← kind).isObjective then
    expected "TTL or TIMESTAMP" "in USING clause"
  let settings ← many TokenKind.isObjective (fun _ => true) fun objective => do
    return (objective.kind, ← objectiveValue objective.kind)
  return settings.foldl (fun attributes setting => attributes.set setting.1 setting.2) .none

/-- An optional `USING objectives`. -/
def usingClause : Rule Attributes := do
  if ← eat .USING then objectives else return .none

/-- What follows INSERT: `INTO table '(' columns ')' VALUES '(' values ')' (USING ..)?` with two or
more columns and values. -/
def insertion : Rule Insertion := do
  keyword .INTO "after INSERT"
  let table ← tableName
  symbol .leftParen "to open column list"
  let columns ← twoOrMore "in column list" (identifier "in column list")
  symbol .rightParen "to close column list"
  keyword .VALUES "after column list"
  symbol .leftParen "to open value list"
  let values ← twoOrMore "in value list" (value "in value list")
  symbol .rightParen "to close value list"
  let attributes ← usingClause
  return { table, columns, values, attributes }

/-- The rest of `'[' key ']'` after its opening bracket. -/
def elementKey : Rule Value := do
  let key ← value "as collection element key"
  symbol .rightBracket "to close element key"
  return key

/-- A column or an element of one, `column ('[' key ']')?`. -/
def deletionTarget : Rule DeletionTarget := do
  let column ← identifier "in DELETE selection"
  if ← eatMark .leftBracket then
    return ⟨column, some (← elementKey)⟩
  else
    return ⟨column, none⟩

/-- An optional `USING TIMESTAMP value`. -/
def timestampClause : Rule Attributes := do
  if ← eat .USING then
    keyword .TIMESTAMP "in DELETE USING clause"
    return { Attributes.none with timestamp := some (← integerOrMarker "after TIMESTAMP") }
  else
    return .none

/-- What follows DELETE: `targets? FROM table (USING TIMESTAMP value)? WHERE relations`. -/
def deletion : Rule Deletion := do
  let targets ←
    if (← kind) = .keyword .FROM then pure [] else commaSeparated deletionTarget
  keyword .FROM "in DELETE"
  let table ← tableName
  let attributes ← timestampClause
  keyword .WHERE "in DELETE"
  let relations ← relations
  return { table, targets, attributes, relations }

end Grammar

end Cql
