/-
Statements that change rows: INSERT, UPDATE, DELETE, and batches of them.
-/
import Cql.Syntax.Operation
import Cql.Syntax.Relation

namespace Cql

/-- What a USING clause sets: `USING TTL .. AND TIMESTAMP ..`. -/
structure Attributes where
  timestamp : Option Term
  timeToLive : Option Term
  deriving BEq

namespace Attributes

def none : Attributes := ⟨.none, .none⟩

def isEmpty (attributes : Attributes) : Bool :=
  attributes.timestamp.isNone && attributes.timeToLive.isNone

end Attributes

structure Insertion where
  table : TableName
  columns : List Identifier
  /-- One value per column; their numbers may differ. -/
  values : List Value
  attributes : Attributes
  deriving BEq

/-- Columns with their values, as far as there are both. -/
def Insertion.assignments (insertion : Insertion) : List (Identifier × Value) :=
  insertion.columns.zip insertion.values

structure Update where
  table : TableName
  attributes : Attributes
  operations : List (Identifier × Operation)
  relations : List Relation
  deriving BEq

/-- What a DELETE removes: a column, or one element of a collection. -/
structure DeletionTarget where
  column : Identifier
  key : Option Value
  deriving BEq

structure Deletion where
  table : TableName
  /-- Empty if the whole row is removed. -/
  targets : List DeletionTarget
  attributes : Attributes
  relations : List Relation
  deriving BEq

/-- A statement that can stand in a batch. -/
inductive Modification
  | insert (insertion : Insertion)
  | update (change : Update)
  | delete (deletion : Deletion)
  deriving BEq

namespace Modification

def table : Modification → TableName
  | .insert insertion => insertion.table
  | .update change => change.table
  | .delete deletion => deletion.table

end Modification

inductive BatchMode
  | logged
  | unlogged
  | counter
  deriving DecidableEq

structure Batch where
  mode : BatchMode
  attributes : Attributes
  modifications : List Modification
  deriving BEq

end Cql
