/-
CREATE, ALTER and DROP.

* `Grammar.create`, `Grammar.alter`, `Grammar.drop` — the statements after their first keywords.
-/
import Cql.Grammar.Table
import Cql.Syntax.Statement

namespace Cql.Grammar

open Rule

/-- Takes TABLE or COLUMNFAMILY if one of them comes next. -/
def eatTable : Rule Bool := do
  if ← eat .TABLE then return true else eat .COLUMNFAMILY

/-- A keyspace and what is set for it, `keyspace WITH properties`. -/
def keyspaceDefinition : Rule KeyspaceDefinition := do
  let keyspace ← keyspaceName
  keyword .WITH "after keyspace name"
  return ⟨keyspace, ← properties⟩

/-- What follows CREATE INDEX: `name? ON table '(' column ')'`. -/
def indexDefinition : Rule IndexDefinition := do
  let name ← if (← kind) = .keyword .ON then pure none else some <$> indexName
  keyword .ON "in CREATE INDEX"
  let table ← tableName
  symbol .leftParen "after table name"
  let column ← identifier "for indexed column"
  symbol .rightParen "after indexed column"
  return { name, table, column }

/-- What follows CREATE. -/
def create : Rule Statement := do
  if ← eat .KEYSPACE then
    return .createKeyspace (← keyspaceDefinition)
  else if ← eatTable then
    return .createTable (← tableDefinition)
  else if ← eat .INDEX then
    return .createIndex (← indexDefinition)
  else
    expected "KEYSPACE, TABLE or INDEX" "after CREATE"

/-- What follows DROP. -/
def drop : Rule Statement := do
  if ← eat .KEYSPACE then
    return .dropKeyspace (← keyspaceName)
  else if ← eatTable then
    return .dropTable (← tableName)
  else if ← eat .INDEX then
    return .dropIndex (← indexName)
  else
    expected "KEYSPACE, TABLE or INDEX" "after DROP"

/-- The old and the new name of a column, `column TO column`. -/
def columnRenaming : Rule (Identifier × Identifier) := do
  let before ← identifier "after RENAME"
  keyword .TO "in RENAME"
  return (before, ← identifier "after TO")

/-- The one change of an ALTER TABLE. -/
def tableChange : Rule TableChange := do
  if ← eat .ALTER then
    let column ← identifier "after ALTER"
    keyword .TYPE "after column name"
    return .retype column (← dataType)
  else if ← eat .ADD then
    let column ← identifier "after ADD"
    return .add column (← dataType)
  else if ← eat .DROP then
    return .drop (← identifier "after DROP")
  else if ← eat .WITH then
    return .setProperties (← properties)
  else if ← eat .RENAME then
    return .rename (← separated (.keyword .AND) columnRenaming)
  else
    expected "ALTER, ADD, DROP, WITH or RENAME" "in ALTER TABLE"

/-- What follows ALTER. -/
def alter : Rule Statement := do
  if ← eat .KEYSPACE then
    return .alterKeyspace (← keyspaceDefinition)
  else if ← eatTable then
    let table ← tableName
    return .alterTable ⟨table, ← tableChange⟩
  else
    expected "KEYSPACE or TABLE" "after ALTER"

end Cql.Grammar
