/-
CREATE TABLE.

Columns, keys and properties may come in any order and number.  A broken item is skipped, and what
was read of a key or of an ordering before it broke off is kept.

* `Grammar.tableElements` — what stands in the parentheses;
* `Grammar.tableOptions` — what stands after WITH;
* `Grammar.tableDefinition` — the statement after its keywords.
-/
import Cql.Grammar.DataType
import Cql.Grammar.Property
import Cql.Syntax.Schema

namespace Cql.Grammar

open Rule

/-- A component of a key, `'(' columns ')' | column`. -/
def keyComponent : Rule (List Identifier) := do
  if ← eatMark .leftParen then
    let columns ← identifiers "in partition key"
    symbol .rightParen "to close partition key"
    return columns
  else
    return [← identifier "in PRIMARY KEY"]

/-- What follows PRIMARY: `KEY '(' component (',' column)* ')'`. -/
def primaryKey : Rule (Salvage TableElement) := do
  keyword .KEY "after PRIMARY"
  symbol .leftParen "after PRIMARY KEY"
  let component ← keyComponent
  let columns ← closed (salvagedAfterComma (identifier "in PRIMARY KEY"))
    (symbol .rightParen "to close PRIMARY KEY")
  return ⟨.keyComponent component :: columns.kept.map .clusteringColumn, columns.complete⟩

/-- A column and its type, `column type (PRIMARY KEY)?`. -/
def columnDefinition : Rule (Salvage TableElement) := do
  let column ← identifier "for column name"
  let type ← dataType
  if ← eat .PRIMARY then
    keyword .KEY "after PRIMARY"
    return ⟨[.keyComponent [column], .column column type], true⟩
  else
    return ⟨[.column column type], true⟩

/-- The kinds of tokens at which a broken item inside the parentheses ends. -/
def endsTableElement : TokenKind → Bool
  | .punctuation .comma | .punctuation .rightParen => true
  | _ => false

/-- A column or a key; what is broken of it is skipped. -/
def tableElement : Rule (List TableElement) :=
  restoring endsTableElement do
    if ← eat .PRIMARY then primaryKey else columnDefinition

/-- What stands in the parentheses, `element (',' element?)*`. -/
def tableElements : Rule (List TableElement) := do
  let first ← tableElement
  let rest ← following (.punctuation .comma) do
    if (← kind) = .punctuation .rightParen then return [] else tableElement
  return (first :: rest).flatten

/-- A column and its direction, `column (ASC | DESC)`. -/
def clusteringEntry : Rule TableElement := do
  let column ← identifier "in CLUSTERING ORDER"
  let direction ← accept
    (fun lexeme =>
      match lexeme.kind with
      | .keyword .ASC => some Direction.ascending
      | .keyword .DESC => some Direction.descending
      | _ => none)
    "ASC or DESC" ("after " ++ column.render)
  return .ordering column direction

/-- What follows CLUSTERING ORDER: `BY '(' entry (',' entry)* ')'`. -/
def clusteringOrder : Rule (Salvage TableElement) := do
  keyword .BY "after CLUSTERING ORDER"
  symbol .leftParen "after CLUSTERING ORDER BY"
  closed (salvaged clusteringEntry) (symbol .rightParen "to close CLUSTERING ORDER")

/-- An option, `COMPACT STORAGE | CLUSTERING ORDER BY .. | property`.  Without its second word,
either keyword is the name of a property. -/
def tableOption : Rule (Salvage TableElement) := do
  let current ← kind
  let next ← nextKind
  if current = .keyword .COMPACT && next = .keyword .STORAGE then
    advance
    advance
    return ⟨[.compactStorage], true⟩
  else if current = .keyword .CLUSTERING && next = .keyword .ORDER then
    advance
    advance
    clusteringOrder
  else
    let setting ← property
    return ⟨setting.toList.map fun (name, value) => .property name value, true⟩

/-- A table option; what is broken of it is skipped. -/
def tableOptionOrSkip : Rule (List TableElement) :=
  restoring (fun kind => kind = .keyword .AND || kind.isClauseBoundary) tableOption

/-- An optional `WITH option (AND option)*`. -/
def tableOptions : Rule (List TableElement) := do
  if ← eat .WITH then
    return (← separated (.keyword .AND) tableOptionOrSkip).flatten
  else
    return []

/-- What follows CREATE TABLE: `table '(' elements ')' (WITH options)?`. -/
def tableDefinition : Rule TableDefinition := do
  let table ← tableName
  symbol .leftParen "to open column definitions"
  let elements ← tableElements
  symbol .rightParen "to close column definitions"
  let options ← tableOptions
  return .ofElements table (elements ++ options)

end Cql.Grammar
