/-
Types of columns in the grammar.

* `Grammar.typeWithin` — a type with a bound on the nesting of collection types;
* `Grammar.dataType` — a type under the common bound.
-/
import Cql.Grammar.Basic
import Cql.Syntax.DataType

namespace Cql.Grammar

open Rule

/-- The native type that a token names. -/
def nativeType? (lexeme : Lexeme) : Option NativeType :=
  match lexeme.kind with
  | .keyword name => NativeType.ofKeyword? name
  | _ => none

/-- A native type, `map<key, value>`, `list<element>`, `set<element>` or the name of a class as a
string.  Types inside are read by `element`. -/
def typeOf (element : Rule DataType) : Rule DataType := do
  match ← kind with
  | .keyword .MAP =>
    advance
    symbol .less "after MAP"
    let key ← element
    symbol .comma "between map key and value types"
    let value ← element
    symbol .greater "to close map type"
    return .map key value
  | .keyword .LIST =>
    advance
    symbol .less "after LIST"
    let inner ← element
    symbol .greater "to close list type"
    return .list inner
  | .keyword .SET =>
    advance
    symbol .less "after SET"
    let inner ← element
    symbol .greater "to close set type"
    return .set inner
  | .string className =>
    advance
    return .custom className
  | _ =>
    .native <$> accept nativeType? "column type" ""

/-- A type in which at most `levels` collection types stand inside one another, itself not
counted. -/
def typeWithin : Nat → Rule DataType
  | 0 => typeOf tooDeep
  | levels + 1 => typeOf (typeWithin levels)

def dataType : Rule DataType := typeWithin maxNesting

end Cql.Grammar
