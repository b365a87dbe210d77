/-
Names of columns, keyspaces and tables.

A name without quotes is folded to lower case; a quoted name is kept as it is.  Two names are equal
if their texts are: `foo`, `FOO` and `"foo"` are one column.

* `Identifier.unquoted`, `Identifier.quoted` — a name from its raw text;
* `TableName` — a table, with or without its keyspace;
* `render` — the written form of either.
-/
import Cql.Syntax.Digest
import Cql.Text.Lowercase
import Cql.Text.Quoted

namespace Cql

structure Identifier where
  text : String
  isQuoted : Bool

namespace Identifier

def ofRaw (raw : String) (quoted : Bool) : Identifier :=
  ⟨if quoted then raw else Lowercase.text raw, quoted⟩

def unquoted (raw : String) : Identifier := ofRaw raw false

def quoted (raw : String) : Identifier := ofRaw raw true

/-- Names are compared by their text. -/
instance : BEq Identifier where
  beq a b := a.text == b.text

theorem beq_iff {a b : Identifier} : (a == b) = true ↔ a.text = b.text :=
  beq_iff_eq (a := a.text) (b := b.text)

instance : Digest Identifier where
  digest name := [.text name.text]

instance : Hashable Identifier := ⟨Digest.hash⟩

def render (name : Identifier) : String :=
  if name.isQuoted then Quoted.render '"' name.text else name.text

end Identifier

/-- A table.  Without a keyspace, it is looked for in the current one. -/
structure TableName where
  keyspace : Option Identifier
  table : Identifier
  deriving BEq

namespace TableName

def hasKeyspace (name : TableName) : Bool := name.keyspace.isSome

instance : Digest TableName where
  digest name := Digest.digest name.keyspace ++ Digest.digest name.table

instance : Hashable TableName := ⟨Digest.hash⟩

def render (name : TableName) : String :=
  match name.keyspace with
  | some keyspace => keyspace.render ++ "." ++ name.table.render
  | none => name.table.render

end TableName

end Cql
