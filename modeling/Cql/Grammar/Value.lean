/-
Values in the grammar.

* `Grammar.scalar` — a constant or a bind marker;
* `Grammar.valueWithin` — a value with a bound on the nesting of collections;
* `Grammar.value` — a value under the common bound;
* `Grammar.mapLiteral` — a map literal only, which properties have.
-/
import Cql.Grammar.Basic

namespace Cql

/-- The constant of a token. -/
def Term.ofKind? : TokenKind → Option Term
  | .string text => some (string text)
  | .integer digits => some (integer digits)
  | .float digits => some (float digits)
  | .uuid digits => some (uuid digits)
  | .hex digits => some (hex digits)
  | .keyword .TRUE => some (boolean true)
  | .keyword .FALSE => some (boolean false)
  | _ => none

namespace Grammar

open Rule

/-- A bind marker, or a token that reads as a constant. -/
def markerOr (constant? : TokenKind → Option Term) (what context : String) : Rule Term := do
  match ← marker? with
  | some ordinal => return .marker ordinal
  | none => accept (fun lexeme => constant? lexeme.kind) what context

def scalar (context : String) : Rule Term :=
  markerOr Term.ofKind? "constant or bind marker" context

/-- The value of TTL and TIMESTAMP. -/
def integerOrMarker (context : String) : Rule Term :=
  markerOr
    (fun
      | .integer digits => some (.integer digits)
      | _ => none)
    "integer or bind marker" context

/-- A list literal, `'[' (value (',' value)*)? ']'`. -/
def listLiteral (value : String → Rule Value) : Rule Value := do
  symbol .leftBracket "to open list literal"
  if ← eatMark .rightBracket then
    return .list []
  let items ← commaSeparated (value "in list literal")
  symbol .rightBracket "to close list literal"
  return .list items

/-- An entry of a map, `key ':' value`. -/
def mapEntry (value : String → Rule Value) : Rule (Value × Value) := do
  let key ← value "as map key"
  symbol .colon "after map key"
  return (key, ← value "as map value")

/-- Empty braces, a set literal or a map literal.  A colon after the first value makes it a map. -/
def bracedLiteral (value : String → Rule Value) : Rule Value := do
  symbol .leftBrace "to open collection literal"
  if ← eatMark .rightBrace then
    return .emptyBraces
  let first ← value "in collection literal"
  if ← eatMark .colon then
    let firstValue ← value "as map value"
    let rest ← following (.punctuation .comma) (mapEntry value)
    symbol .rightBrace "to close map literal"
    return .map ((first, firstValue) :: rest)
  else
    let rest ← following (.punctuation .comma) (value "in set literal")
    symbol .rightBrace "to close set literal"
    return .set (first :: rest)

/-- A map literal, `'{' (key ':' value (',' key ':' value)*)? '}'`. -/
def mapLiteral (value : String → Rule Value) : Rule (List (Value × Value)) := do
  symbol .leftBrace "to open map literal"
  if ← eatMark .rightBrace then
    return []
  let entries ← commaSeparated (mapEntry value)
  symbol .rightBrace "to close map literal"
  return entries

/-- A scalar, or a collection that the given rules read. -/
def scalarOr (list braced : Rule Value) (context : String) : Rule Value := do
  match ← kind with
  | .punctuation .leftBracket => list
  | .punctuation .leftBrace => braced
  | _ => return .term (← scalar context)

/-- A value in which at most `levels` collections stand inside one another. -/
def valueWithin : Nat → String → Rule Value
  | 0, context => scalarOr tooDeep tooDeep context
  | levels + 1, context =>
    scalarOr (listLiteral (valueWithin levels)) (bracedLiteral (valueWithin levels)) context

def value (context : String) : Rule Value := valueWithin maxNesting context

def values (context : String) : Rule (List Value) := commaSeparated (value context)

end Grammar

end Cql
