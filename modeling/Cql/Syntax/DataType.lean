/-
Types of columns.

* `NativeType` — the native types and their keywords;
* `DataType` — a native type, a collection type, or a custom type given by the name of its class;
* `DataType.render` — the written form.
-/
import Cql.Text.Quoted
import Cql.Token.Keyword

namespace Cql

inductive NativeType
  | ascii | bigint | blob | boolean | counter | decimal | double | float | inet | int | text
  | timestamp | uuid | varchar | varint | timeuuid
  deriving DecidableEq, Hashable

namespace NativeType

def name : NativeType → String
  | ascii => "ascii" | bigint => "bigint" | blob => "blob" | boolean => "boolean"
  | counter => "counter" | decimal => "decimal" | double => "double" | float => "float"
  | inet => "inet" | int => "int" | text => "text" | timestamp => "timestamp"
  | uuid => "uuid" | varchar => "varchar" | varint => "varint" | timeuuid => "timeuuid"

def keyword : NativeType → Keyword
  | ascii => .ASCII | bigint => .BIGINT | blob => .BLOB | boolean => .BOOLEAN
  | counter => .COUNTER | decimal => .DECIMAL | double => .DOUBLE | float => .FLOAT
  | inet => .INET | int => .INT | text => .TEXT | timestamp => .TIMESTAMP
  | uuid => .UUID | varchar => .VARCHAR | varint => .VARINT | timeuuid => .TIMEUUID

/-- Every native type once. -/
def all : List NativeType :=
  [ascii, bigint, blob, boolean, counter, decimal, double, float, inet, int, text, timestamp,
   uuid, varchar, varint, timeuuid]

/-- The native type that a keyword names. -/
def ofKeyword? (keyword : Keyword) : Option NativeType := all.find? (·.keyword = keyword)

theorem ofKeyword?_keyword (type : NativeType) : ofKeyword? type.keyword = some type := by
  cases type <;> decide

theorem isSome_ofKeyword? (keyword : Keyword) :
    (ofKeyword? keyword).isSome = keyword.isNativeType := by
  cases keyword <;> decide

/-- The native type with a given name. -/
def ofName? (name : String) : Option NativeType := all.find? (·.name = name)

end NativeType

inductive DataType
  | native (type : NativeType)
  | map (key value : DataType)
  | list (element : DataType)
  | set (element : DataType)
  | custom (className : String)
  deriving DecidableEq, Hashable

namespace DataType

def isCollection : DataType → Bool
  | map _ _ | list _ | set _ => true
  | _ => false

def isCounter : DataType → Bool
  | native .counter => true
  | _ => false

/-- The written form of a type. -/
def render : DataType → String
  | native type => type.name
  | map key value => "map<" ++ key.render ++ ", " ++ value.render ++ ">"
  | list element => "list<" ++ element.render ++ ">"
  | set element => "set<" ++ element.render ++ ">"
  | custom className => Quoted.render '\'' className

end DataType

end Cql
