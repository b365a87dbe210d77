/-
Statements that change the schema: keyspaces, tables and indexes.

* `TableDefinition` — what CREATE TABLE describes;
* `TableElement` — one thing that its text says about the table; `TableDefinition.ofElements` puts
  them together in order.
-/
import Cql.Syntax.ColumnOrder
import Cql.Syntax.DataType
import Cql.Syntax.Properties

namespace Cql

/-- A keyspace with its properties. -/
structure KeyspaceDefinition where
  keyspace : Identifier
  properties : Properties
  deriving BEq

structure TableDefinition where
  table : TableName
  columns : List (Identifier × DataType)
  /-- The partition key, component by component. -/
  keyComponents : List (List Identifier)
  clusteringColumns : List Identifier
  properties : Properties
  compactStorage : Bool
  clusteringOrder : ColumnOrder
  deriving BEq

/-- One thing that CREATE TABLE says about its table. -/
inductive TableElement
  | column (name : Identifier) (type : DataType)
  | keyComponent (columns : List Identifier)
  | clusteringColumn (name : Identifier)
  | property (name : String) (value : PropertyValue)
  | compactStorage
  | ordering (column : Identifier) (direction : Direction)

namespace TableDefinition

/-- A table of which nothing is known but its name. -/
def bare (table : TableName) : TableDefinition := ⟨table, [], [], [], .empty, false, .empty⟩

def add (definition : TableDefinition) : TableElement → TableDefinition
  | .column name type => { definition with columns := definition.columns ++ [(name, type)] }
  | .keyComponent columns =>
    { definition with keyComponents := definition.keyComponents ++ [columns] }
  | .clusteringColumn name =>
    { definition with clusteringColumns := definition.clusteringColumns ++ [name] }
  | .property name value =>
    { definition with properties := definition.properties.insert name value }
  | .compactStorage => { definition with compactStorage := true }
  | .ordering column direction =>
    { definition with clusteringOrder := definition.clusteringOrder.insert column direction }

/-- The table that a list of elements describes. -/
def ofElements (table : TableName) (elements : List TableElement) : TableDefinition :=
  elements.foldl add (bare table)

/-- The type of a column. -/
def columnType? (definition : TableDefinition) (column : Identifier) : Option DataType :=
  (definition.columns.find? (·.1 == column)).map (·.2)

/-- The columns of the partition key. -/
def partitionKey (definition : TableDefinition) : List Identifier :=
  definition.keyComponents.flatten

/-- The columns that belong neither to the partition key nor to the clustering columns. -/
def regularColumns (definition : TableDefinition) : List (Identifier × DataType) :=
  definition.columns.filter fun column =>
    !definition.partitionKey.contains column.1 && !definition.clusteringColumns.contains column.1

end TableDefinition

structure IndexDefinition where
  name : Option String
  table : TableName
  column : Identifier
  deriving BEq

/-- The one change that an ALTER TABLE makes. -/
inductive TableChange
  | retype (column : Identifier) (type : DataType)
  | add (column : Identifier) (type : DataType)
  | drop (column : Identifier)
  | setProperties (properties : Properties)
  | rename (renames : List (Identifier × Identifier))
  deriving BEq

structure TableAlteration where
  table : TableName
  change : TableChange
  deriving BEq

end Cql
