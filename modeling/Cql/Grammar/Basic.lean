/-
Rules that every part of the grammar uses.

* `Rule.accept` — takes a token that can be read as what is wanted, and complains about any other;
* `Rule.keyword`, `Rule.symbol` — a given keyword or mark; `Rule.eat` — the same if it comes next;
* `Rule.separated` — a list with separators; `Rule.salvaged` — the same, but what was read before a
  fault is kept;
* `Rule.restoring` — an item whose faults are skipped.
-/
import Cql.Grammar.Rule

namespace Cql

/-- How many collections, or collection types, may stand inside one another. -/
def maxNesting : Nat := 100

/-- The kinds of tokens at which a broken item of a clause ends: those that begin another clause, and
the end of the statement. -/
def TokenKind.isClauseBoundary : TokenKind → Bool
  | keyword .FROM | keyword .WHERE | keyword .SET | keyword .USING | keyword .ORDER
  | keyword .LIMIT | keyword .ALLOW | keyword .WITH | keyword .APPLY
  | punctuation .semicolon => true
  | _ => false

/-- What could be read of something, and whether all of it could. -/
structure Salvage (α : Type) where
  kept : List α
  complete : Bool

namespace Rule

variable {α : Type}

/-- Kind of the current token. -/
def kind : Rule TokenKind := do
  return (← look 0).kind

/-- Kind of the token after the current one. -/
def nextKind : Rule TokenKind := do
  return (← look 1).kind

/-- The place of the current token. -/
def here : Rule Place := do
  return .token (← position)

/-- The stretch from a token to the one taken last. -/
def since (first : Nat) : Rule Place := do
  return .stretch first ((← position) - 1)

/-- Takes the current token, whatever it is. -/
def advance : Rule Unit := do
  let _ ← take

/-- Reports that something else was required here. -/
def reportExpected (what context : String) : Rule Unit := do
  report (.expected what context (← kind)) (← here)

/-- Halts because something else was required here. -/
def expected (what context : String) : Rule α := do
  fail (.expected what context (← kind)) (← here)

/-- Takes the current token if it can be read as what is wanted. -/
def accept? (read : Lexeme → Option α) : Rule (Option α) := do
  match read (← look 0) with
  | some a =>
    advance
    return some a
  | none => return none

/-- Takes the current token, which must be readable as what is wanted. -/
def accept (read : Lexeme → Option α) (what context : String) : Rule α := do
  match ← accept? read with
  | some a => return a
  | none => expected what context

/-- Takes a token of the given kind if it comes next, and says whether it did. -/
def eatKind (wanted : TokenKind) : Rule Bool := do
  if (← kind) = wanted then
    advance
    return true
  else
    return false

/-- Takes a keyword if it comes next. -/
def eat (wanted : Keyword) : Rule Bool := eatKind (.keyword wanted)

/-- Takes a mark if it comes next. -/
def eatMark (wanted : Punctuation) : Rule Bool := eatKind (.punctuation wanted)

/-- Takes a token that must be of the given kind. -/
def ofKind (wanted : TokenKind) (context : String) : Rule Unit := do
  if !(← eatKind wanted) then
    expected wanted.render context

/-- Takes a keyword that must come next. -/
def keyword (wanted : Keyword) (context : String) : Rule Unit := ofKind (.keyword wanted) context

/-- Takes a mark that must come next. -/
def symbol (wanted : Punctuation) (context : String) : Rule Unit :=
  ofKind (.punctuation wanted) context

/-- Takes tokens up to the next one that stops, or an end of input. -/
def skipUntil (stops : TokenKind → Bool) : Rule Unit := do
  let _ ← many (fun kind => !stops kind && kind ≠ .endOfInput) (fun _ => true) fun _ => done ()

/-- Takes any number of semicolons. -/
def semicolons : Rule Unit := do
  let _ ← many (· = .punctuation .semicolon) (fun _ => true) fun _ => done ()

/-- Any number of items, each after a separator. -/
def following (separator : TokenKind) (item : Rule α) : Rule (List α) :=
  many (· = separator) (fun _ => true) fun _ => item

/-- One or more items with separators between them. -/
def separated (separator : TokenKind) (item : Rule α) : Rule (List α) := do
  let first ← item
  let rest ← following separator item
  return first :: rest

/-- One or more items with commas between them. -/
def commaSeparated (item : Rule α) : Rule (List α) := separated (.punctuation .comma) item

/-- Two or more items with commas between them. -/
def twoOrMore (context : String) (item : Rule α) : Rule (List α) := do
  let first ← item
  symbol .comma context
  let rest ← commaSeparated item
  return first :: rest

/-- Any number of items, each after a comma, up to the first one that halts. -/
def salvagedAfterComma (item : Rule α) : Rule (Salvage α) := do
  let items ← many (· = .punctuation .comma) Option.isSome fun _ => attempt item
  return ⟨items.filterMap id, items.all Option.isSome⟩

/-- One or more items with commas between them, up to the first one that halts. -/
def salvaged (item : Rule α) : Rule (Salvage α) := do
  match ← attempt item with
  | none => return ⟨[], false⟩
  | some first =>
    let rest ← salvagedAfterComma item
    return ⟨first :: rest.kept, rest.complete⟩

/-- What was salvaged, followed by a closing token if it was complete. -/
def closed (list : Rule (Salvage α)) (close : Rule Unit) : Rule (Salvage α) := do
  let items ← list
  if items.complete then
    return ⟨items.kept, (← attempt close).isSome⟩
  else
    return items

/-- An item of which anything may be missing; where it breaks off, tokens are skipped up to the next
one that stops. -/
def restoring (stops : TokenKind → Bool) (item : Rule (Salvage α)) : Rule (List α) := do
  match ← attempt item with
  | none =>
    skipUntil stops
    return []
  | some items =>
    if !items.complete then
      skipUntil stops
    return items.kept

/-- What stands too deep inside collections to be read. -/
def tooDeep : Rule α := do
  fail .nestedTooDeeply (← here)

end Rule

end Cql
