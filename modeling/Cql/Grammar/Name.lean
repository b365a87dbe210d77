/-
Names in the grammar: columns, keyspaces, tables, users, indexes.

A column, keyspace or table may be called by an unreserved keyword, which then counts as written.  A
user or an index may not.
-/
import Cql.Grammar.Basic

namespace Cql

/-- The name that a token stands for. -/
def Identifier.ofLexeme? (lexeme : Lexeme) : Option Identifier :=
  match lexeme.kind with
  | .identifier name => some (unquoted name)
  | .quotedName name => some (quoted name)
  | .keyword keyword => if keyword.isUnreserved then some (unquoted lexeme.text) else none
  | _ => none

namespace Grammar

open Rule

/-- The name of a column, or another name that is written like one. -/
def identifier (context : String) : Rule Identifier :=
  accept Identifier.ofLexeme? "identifier" context

def identifiers (context : String) : Rule (List Identifier) := commaSeparated (identifier context)

def keyspaceName : Rule Identifier := identifier "for keyspace name"

/-- A table with or without its keyspace, `(keyspace '.')? table`. -/
def tableName : Rule TableName := do
  let first ← identifier "for table name"
  if ← eatMark .dot then
    return ⟨some first, ← identifier "for table name"⟩
  else
    return ⟨none, first⟩

/-- A user: an identifier or a string, with the case of its letters kept. -/
def userName (context : String) : Rule String :=
  accept
    (fun lexeme =>
      match lexeme.kind with
      | .identifier name | .string name => some name
      | _ => none)
    "username" context

/-- An index: an identifier, kept as written. -/
def indexName : Rule String :=
  accept
    (fun lexeme =>
      match lexeme.kind with
      | .identifier _ => some lexeme.text
      | _ => none)
    "index name" ""

end Grammar

end Cql
