/-
Grammar rules and their meaning.

A rule is data: it is put together from a few forms, and `Rule.run` says what each form does to a
stream of tokens.  What holds of every rule is therefore proved by one induction over the forms.  A
rule sees the kinds and the texts of tokens, never their spans.

A rule ends with a value or it halts.  A halt that was reported can be recovered from; a fatal one
ends the whole parse.  In either case the reports made on the way are kept.

* `Rule` — the forms of rules;
* `Rule.run` — the meaning of a rule: result, state after it, and reports;
* `Run.many`, `Run.gather` — the meaning of the two repeating forms.
-/
import Cql.Grammar.BindMarkers
import Cql.Grammar.Problem

namespace Cql

/-- A grammar rule that reads a value of type `α`. -/
inductive Rule : Type → Type 1
  /-- Reads nothing. -/
  | done {α : Type} (a : α) : Rule α
  /-- One rule, then another that may depend on what the first has read. -/
  | andThen {α β : Type} (rule : Rule α) (next : α → Rule β) : Rule β
  /-- The token `n` places ahead; nothing is taken. -/
  | look (n : Nat) : Rule Lexeme
  /-- Takes the current token.  The end mark is never passed. -/
  | take : Rule Lexeme
  /-- Takes a bind marker, if one comes next, and numbers it. -/
  | marker? : Rule (Option Nat)
  /-- The number of the current token. -/
  | position : Rule Nat
  /-- Reports a problem and goes on. -/
  | report (problem : Problem) (place : Place) : Rule Unit
  /-- Reports a problem and halts. -/
  | fail {α : Type} (problem : Problem) (place : Place) : Rule α
  /-- Reports a problem and ends the parse. -/
  | abort {α : Type} (problem : Problem) (place : Place) : Rule α
  /-- Comes back with nothing where `rule` halts, unless the halt is fatal. -/
  | attempt {α : Type} (rule : Rule α) : Rule (Option α)
  /-- While the current token `opens` an item: takes it and reads the item, as long as the items
  read let the list go on. -/
  | many {α : Type} (opens : TokenKind → Bool) (goesOn : α → Bool) (item : Lexeme → Rule α) :
      Rule (List α)
  /-- One or more items with separators between them.  An item that halts is skipped up to the next
  separator, stop or end of input, and an item may also come out empty.  The list halts if an item
  was skipped and none was kept. -/
  | gather {α : Type} (separator : TokenKind) (stops : TokenKind → Bool) (item : Rule (Option α)) :
      Rule (List α)

/-- The tokens and the bind markers numbered so far. -/
structure State where
  stream : TokenStream
  markers : BindMarkers

/-- How a rule can end without a value. -/
inductive Halt
  /-- The reason was reported; callers may recover. -/
  | recorded
  /-- The whole parse ends. -/
  | fatal
  deriving DecidableEq

/-- What comes of running a rule. -/
structure Reply (α : Type) where
  result : Except Halt α
  state : State
  reports : List Report

/-- How a reply ended, if without a value. -/
def Reply.halt? {α : Type} (reply : Reply α) : Option Halt :=
  match reply.result with
  | .ok _ => none
  | .error halt => some halt

/-- A meaning of rules: what comes of each state. -/
abbrev Run (α : Type) := State → Reply α

namespace State

def advance (state : State) : State := { state with stream := state.stream.advance }

def lexeme (state : State) (n : Nat) : Lexeme := (state.stream.peek n).toLexeme

end State

namespace Run

variable {α β : Type}

def done (a : α) : Run α := fun state => ⟨.ok a, state, []⟩

def andThen (run : Run α) (next : α → Run β) : Run β := fun state =>
  let first := run state
  match first.result with
  | .ok a =>
    let second := next a first.state
    ⟨second.result, second.state, first.reports ++ second.reports⟩
  | .error halt => ⟨.error halt, first.state, first.reports⟩

def halt (halt : Halt) : Run α := fun state => ⟨.error halt, state, []⟩

def attempt (run : Run α) : Run (Option α) := fun state =>
  let reply := run state
  match reply.result with
  | .ok a => ⟨.ok (some a), reply.state, reply.reports⟩
  | .error .recorded => ⟨.ok none, reply.state, reply.reports⟩
  | .error .fatal => ⟨.error .fatal, reply.state, reply.reports⟩

/-- At most `bound` items of a list.  Since each takes a token, as many as there are tokens ahead
are always enough. -/
def manyUpTo (opens : TokenKind → Bool) (goesOn : α → Bool) (item : Lexeme → Run α) :
    Nat → Run (List α)
  | 0 => done []
  | bound + 1 => fun state =>
    match state.stream.ahead with
    | [] => ⟨.ok [], state, []⟩
    | token :: _ =>
      if opens token.kind then
        let first := item token.toLexeme state.advance
        match first.result with
        | .error halt => ⟨.error halt, first.state, first.reports⟩
        | .ok a =>
          if goesOn a then
            let rest := manyUpTo opens goesOn item bound first.state
            ⟨rest.result.map (a :: ·), rest.state, first.reports ++ rest.reports⟩
          else
            ⟨.ok [a], first.state, first.reports⟩
      else
        ⟨.ok [], state, []⟩

def many (opens : TokenKind → Bool) (goesOn : α → Bool) (item : Lexeme → Run α) :
    Run (List α) := fun state =>
  manyUpTo opens goesOn item state.stream.ahead.length state

/-- Takes tokens up to the next one that stops, or an end of input. -/
def skipUntil (stops : TokenKind → Bool) : Run Unit :=
  andThen (many (fun kind => !stops kind && kind ≠ .endOfInput) (fun _ => true) fun _ => done ())
    fun _ => done ()

/-- An item of a list that may be broken.  What is left of a broken item is skipped, and it counts
as `none`. -/
def part (resync : Run Unit) (item : Run α) : Run (Option α) :=
  andThen (attempt item) fun
    | some a => done (some a)
    | none => andThen resync fun _ => done none

/-- What a list of parts comes to: the items kept, unless one was broken and none was kept. -/
def settle (parts : List (Option (Option α))) : Run (List α) :=
  let kept := parts.filterMap Option.join
  if parts.any Option.isNone && kept.isEmpty then halt .recorded else done kept

def gather (separator : TokenKind) (stops : TokenKind → Bool) (item : Run (Option α)) :
    Run (List α) :=
  let next := part (skipUntil fun kind => kind = separator || stops kind) item
  andThen next fun first =>
    andThen (many (· = separator) (fun _ => true) fun _ => next) fun rest =>
      settle (first :: rest)

end Run

namespace Rule

/-- The meaning of a rule. -/
def run {α : Type} : Rule α → Run α
  | done a => Run.done a
  | andThen rule next => Run.andThen rule.run fun a => (next a).run
  | look n => fun state => ⟨.ok (state.lexeme n), state, []⟩
  | take => fun state => ⟨.ok (state.lexeme 0), state.advance, []⟩
  | marker? => fun state =>
    if (state.lexeme 0).kind = .punctuation .questionMark then
      let (ordinal, markers) := state.markers.next
      ⟨.ok (some ordinal), { state.advance with markers := markers }, []⟩
    else
      ⟨.ok none, state, []⟩
  | position => fun state => ⟨.ok state.stream.position, state, []⟩
  | report problem place => fun state => ⟨.ok (), state, [⟨problem, place⟩]⟩
  | fail problem place => fun state => ⟨.error .recorded, state, [⟨problem, place⟩]⟩
  | abort problem place => fun state => ⟨.error .fatal, state, [⟨problem, place⟩]⟩
  | attempt rule => Run.attempt rule.run
  | many opens goesOn item => Run.many opens goesOn fun lexeme => (item lexeme).run
  | gather separator stops item => Run.gather separator stops item.run

instance : Monad Rule where
  pure := done
  bind := andThen

end Rule

end Cql
