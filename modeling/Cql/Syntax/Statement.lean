/-
Statements.

Equality of statements ignores what equality of their parts ignores: the ordinals of bind markers
and whether a name was quoted.

* `Statement` — every statement of the language;
* `ParsedStatement` — a statement with its bind markers counted and its place in the source.
-/
import Cql.Span
import Cql.Syntax.Modification
import Cql.Syntax.Permission
import Cql.Syntax.Schema

namespace Cql

structure Selection where
  table : TableName
  projection : Projection
  relations : List Relation
  orderings : ColumnOrder
  limit : Int
  allowFiltering : Bool
  deriving BEq

/-- The number of rows that a SELECT returns at most if it sets no limit. -/
def Selection.defaultLimit : Int := 10000

inductive Statement
  | select (selection : Selection)
  | insert (insertion : Insertion)
  | update (update : Update)
  | delete (deletion : Deletion)
  | batch (batch : Batch)
  | use (keyspace : Identifier)
  | truncate (table : TableName)
  | createKeyspace (definition : KeyspaceDefinition)
  | createTable (definition : TableDefinition)
  | createIndex (definition : IndexDefinition)
  | dropKeyspace (keyspace : Identifier)
  | dropTable (table : TableName)
  | dropIndex (name : String)
  | alterTable (alteration : TableAlteration)
  | alterKeyspace (definition : KeyspaceDefinition)
  | grant (grant : Grant)
  | revoke (revocation : Revocation)
  | listGrants (user : String)
  deriving BEq

namespace Statement

/-- The words that a statement of this kind begins with; for a batch, what it is. -/
def kind : Statement → String
  | select _ => "SELECT"
  | insert _ => "INSERT"
  | update _ => "UPDATE"
  | delete _ => "DELETE"
  | batch _ => "BATCH"
  | use _ => "USE"
  | truncate _ => "TRUNCATE"
  | createKeyspace _ => "CREATE KEYSPACE"
  | createTable _ => "CREATE TABLE"
  | createIndex _ => "CREATE INDEX"
  | dropKeyspace _ => "DROP KEYSPACE"
  | dropTable _ => "DROP TABLE"
  | dropIndex _ => "DROP INDEX"
  | alterTable _ => "ALTER TABLE"
  | alterKeyspace _ => "ALTER KEYSPACE"
  | grant _ => "GRANT"
  | revoke _ => "REVOKE"
  | listGrants _ => "LIST GRANTS"

def changesSchema : Statement → Bool
  | createKeyspace _ | createTable _ | createIndex _ | dropKeyspace _ | dropTable _ | dropIndex _
  | alterTable _ | alterKeyspace _ => true
  | _ => false

end Statement

structure ParsedStatement where
  statement : Statement
  /-- Number of bind markers. -/
  boundTerms : Nat
  span : Span
  deriving BEq

end Cql
