/-
Properties of keyspaces and tables.

A property without an acceptable value is reported and, where something of it can be kept, kept.

* `Grammar.property` — one property;
* `Grammar.properties` — a list of them.
-/
import Cql.Grammar.Name
import Cql.Grammar.Value
import Cql.Syntax.Properties

namespace Cql

/-- The text of a property value: of a constant, or of an unreserved keyword as it is written. -/
def PropertyValue.textOf? (lexeme : Lexeme) : Option String :=
  match Term.ofKind? lexeme.kind with
  | some term => term.rawText?
  | none => if lexeme.kind.isUnreservedKeyword then some lexeme.text else none

namespace Grammar

open Rule

/-- The entries of a property map up to the first that is not made of constants, and what is wrong
with that one. -/
def propertyEntries : List (Value × Value) → List (String × String) × Option Problem
  | [] => ([], none)
  | (key, value) :: rest =>
    match key.constantText?, value.constantText? with
    | none, _ => ([], some (.propertyKey key))
    | some _, none => ([], some (.propertyValue value key.render))
    | some keyText, some valueText =>
      let (entries, problem) := propertyEntries rest
      ((keyText, valueText) :: entries, problem)

/-- A map literal as a property value. -/
def propertyMap : Rule PropertyValue := do
  let first ← position
  let (entries, problem) := propertyEntries (← mapLiteral value)
  match problem with
  | some problem => report problem (← since first)
  | none => pure ()
  return .map (.ofList entries)

/-- One property, `name '=' (constant | keyword | map)`.  A bind marker is reported and sets
nothing. -/
def property : Rule (Option (String × PropertyValue)) := do
  let name ← identifier "for property name"
  symbol .equal "after property name"
  match ← kind with
  | .punctuation .leftBrace => return some (name.text, ← propertyMap)
  | .punctuation .questionMark =>
    report (.propertyValue (.term (.marker 0)) name.render) (← here)
    advance
    return none
  | _ =>
    let text ← accept PropertyValue.textOf? "property value" ("for property " ++ name.render)
    return some (name.text, .text text)

/-- A list of properties, `property (AND property)*`. -/
def properties : Rule Properties := do
  let settings ← separated (.keyword .AND) property
  return .ofList (settings.filterMap id)

end Grammar

end Cql
