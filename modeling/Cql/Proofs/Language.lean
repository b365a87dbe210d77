/-
The grammar of queries and of statements that change rows.

Each part of the grammar is a phrase.  Which texts derive from it and what they denote is all that it
says: there is no look-ahead in it, no order of trial and no recovery.  Where what a clause denotes is put
together by a function, a theorem beside the clause describes it without that function.

* `Language.value`, `Language.relations` — what all statements share;
* `Language.insertion`, `Language.update`, `Language.deletion`, `Language.batch`,
  `Language.selection` — the statements after their first keywords;
* `Language.objectives_iff`, `Language.change_element_iff`, `Language.orderClause_iff`,
  `Language.limitClause_iff` — what their clauses denote;
* `Language.query` — a statement with semicolons around it;
* `Language.modificationStatement`, `Language.selectStatement` — the statements with their keywords.
-/
import Cql.Grammar.Batch
import Cql.Grammar.Select
import Cql.Proofs.Orderings
import Cql.Proofs.Phrase

namespace Cql.Language

open Phrase

/-! ### Names -/

/-- A name, a quoted name or an unreserved keyword. -/
def identifier : Phrase Identifier := token fun item => Identifier.ofLexeme? item.lexeme

/-- A table, `(keyspace '.')? table`. -/
def tableName : Phrase TableName :=
  (do
    let keyspace ← identifier
    mark .dot
    return ⟨some keyspace, ← identifier⟩) <|>
  (do return ⟨none, ← identifier⟩)

/-! ### Values -/

def constant : Phrase Term := token fun item => Term.ofKind? item.kind

/-- The term that a constant stands for keeps its text, or it is a truth value. -/
inductive IsConstant : TokenKind → Term → Prop
  | string (text : String) : IsConstant (.string text) (.string text)
  | integer (digits : String) : IsConstant (.integer digits) (.integer digits)
  | float (digits : String) : IsConstant (.float digits) (.float digits)
  | uuid (digits : String) : IsConstant (.uuid digits) (.uuid digits)
  | hex (digits : String) : IsConstant (.hex digits) (.hex digits)
  | yes : IsConstant (.keyword .TRUE) (.boolean true)
  | no : IsConstant (.keyword .FALSE) (.boolean false)

theorem isConstant_iff {kind : TokenKind} {term : Term} :
    IsConstant kind term ↔ Term.ofKind? kind = some term := by
  constructor
  · intro isConstant
    cases isConstant <;> rfl
  · intro known
    unfold Term.ofKind? at known
    split at known <;> cases known
    · exact .string _
    · exact .integer _
    · exact .float _
    · exact .uuid _
    · exact .hex _
    · exact .yes
    · exact .no

theorem constant_iff {items : List Numbered} {term : Term} :
    constant items term ↔ ∃ item, items = [item] ∧ IsConstant item.kind term := by
  simp only [constant, token, isConstant_iff]

def integer : Phrase String := token fun item =>
  match item.kind with
  | .integer digits => some digits
  | _ => none

/-- A bind marker; it stands for its ordinal. -/
def marker : Phrase Term := token fun item =>
  if item.kind = .punctuation .questionMark then some (.marker item.ordinal) else none

def scalar : Phrase Term := constant <|> marker

def integerOrMarker : Phrase Term := (Term.integer <$> integer) <|> marker

/-- A list literal, `'[' (value (',' value)*)? ']'`. -/
def listLiteral (value : Phrase Value) : Phrase Value := do
  mark .leftBracket
  let items ← commaSeparated value <|> pure []
  mark .rightBracket
  return .list items

/-- An entry of a map, `key ':' value`. -/
def mapEntry (value : Phrase Value) : Phrase (Value × Value) := do
  let key ← value
  mark .colon
  return (key, ← value)

/-- Empty braces, `'{' value (',' value)* '}'` or `'{' entry (',' entry)* '}'`. -/
def bracedLiteral (value : Phrase Value) : Phrase Value :=
  (do
    mark .leftBrace
    mark .rightBrace
    return .emptyBraces) <|>
  (do
    mark .leftBrace
    let items ← commaSeparated value
    mark .rightBrace
    return .set items) <|>
  (do
    mark .leftBrace
    let entries ← commaSeparated (mapEntry value)
    mark .rightBrace
    return .map entries)

/-- A map literal, `'{' (entry (',' entry)*)? '}'`. -/
def mapLiteral (value : Phrase Value) : Phrase (List (Value × Value)) := do
  mark .leftBrace
  (do
    mark .rightBrace
    return []) <|>
  (do
    let entries ← commaSeparated (mapEntry value)
    mark .rightBrace
    return entries)

/-- A value in which at most `levels` collections stand inside one another. -/
def valueWithin : Nat → Phrase Value
  | 0 => .term <$> scalar
  | levels + 1 =>
    (.term <$> scalar) <|> listLiteral (valueWithin levels) <|> bracedLiteral (valueWithin levels)

def value : Phrase Value := valueWithin maxNesting

/-! ### Relations -/

def comparison : Phrase Comparison := token fun item =>
  match item.kind with
  | .punctuation mark => Comparison.ofMark? mark
  | _ => none

/-- What a token is compared with: `TOKEN '(' values ')'` with as many values as there are columns, or
a value. -/
def tokenOperand (columns : Nat) : Phrase TokenOperand :=
  (do
    word .TOKEN
    let arguments ← parenthesized value
    require (arguments.length = columns)
    return .call arguments) <|>
  (.value <$> value)

/-- One of `column IN '(' values ')'`, `column comparison value` and
`TOKEN '(' columns ')' comparison operand`. -/
def relation : Phrase Relation :=
  (do
    let column ← identifier
    word .IN
    return .isIn column (← parenthesized value)) <|>
  (do
    let column ← identifier
    let sign ← comparison
    return .compare column sign (← value)) <|>
  (do
    word .TOKEN
    let columns ← parenthesized identifier
    let sign ← comparison
    return .token columns sign (← tokenOperand columns.length))

/-- The relations of a clause, `relation (AND relation)*`. -/
def relations : Phrase (List Relation) := separated (word .AND) relation

/-! ### USING clauses -/

/-- One of `TTL value` and `TIMESTAMP value`. -/
def objective : Phrase (TokenKind × Term) := do
  let name ← token fun item => if item.kind.isObjective then some item.kind else none
  return (name, ← integerOrMarker)

/-- Objectives, `objective (AND? objective)*`; of two with one name, the later counts. -/
def objectives : Phrase Attributes := do
  let first ← objective
  let rest ← many do
    optionally (word .AND)
    objective
  return (first :: rest).foldl (fun attributes setting => attributes.set setting.1 setting.2) .none

/-- The value that an objective is given last. -/
def latest? (name : TokenKind) (settings : List (TokenKind × Term)) : Option Term :=
  (settings.filter (·.1 = name)).getLast?.map (·.2)

theorem timeToLive_setAll (settings : List (TokenKind × Term)) :
    (Attributes.none.setAll settings).timeToLive = latest? (.keyword .TTL) settings := by
  have folded := get_foldl_insert Attributes.timeToLive
    (fun attributes setting => attributes.set setting.1 setting.2) (·.1 = .keyword .TTL) (·.2)
    (fun attributes setting => by simp [Attributes.timeToLive_set]) settings Attributes.none
  exact folded.trans Option.or_none

theorem timestamp_setAll {settings : List (TokenKind × Term)}
    (names : ∀ setting ∈ settings, setting.1.isObjective = true) :
    (Attributes.none.setAll settings).timestamp = latest? (.keyword .TIMESTAMP) settings := by
  have folded := get_foldl_insert Attributes.timestamp
    (fun attributes setting => attributes.set setting.1 setting.2) (·.1 ≠ .keyword .TTL) (·.2)
    (fun attributes setting => by simp [Attributes.timestamp_set]) settings Attributes.none
  -- An objective that is not the one is the other.
  have other : settings.filter (·.1 ≠ .keyword .TTL) = settings.filter (·.1 = .keyword .TIMESTAMP) := by
    refine List.filter_congr fun setting mem => ?_
    rcases TokenKind.isObjective_iff.1 (names setting mem) with same | same <;> simp [same]
  rw [other] at folded
  exact folded.trans Option.or_none

/-- The objectives of a clause as they are written, `objective (AND? objective)*`. -/
def settings : Phrase (List (TokenKind × Term)) := do
  let first ← objective
  let rest ← many do
    optionally (word .AND)
    objective
  return first :: rest

theorem gives_objective : objective.Gives fun setting => setting.1.isObjective = true := by
  rintro items setting ⟨_, name, rest, -, ⟨item, -, seen⟩, _, term, _, -, -, -, rfl⟩
  dsimp only at seen
  by_cases isObjective : item.kind.isObjective = true
  · rw [if_pos isObjective] at seen
    rwa [← Option.some.inj seen]
  · simp [isObjective] at seen

theorem gives_settings : settings.Gives fun all => ∀ setting ∈ all, setting.1.isObjective = true :=
  gives_objective.andThen fun _ first => (Gives.many (.bind fun _ => gives_objective)).andThen
    fun _ others => .pure (List.forall_mem_cons.2 ⟨first, others⟩)

/-- Objectives set the TTL and the timestamp that are given last. -/
theorem objectives_iff {items : List Numbered} {attributes : Attributes} :
    objectives items attributes ↔ ∃ all, settings items all ∧
      attributes.timeToLive = latest? (.keyword .TTL) all ∧
      attributes.timestamp = latest? (.keyword .TIMESTAMP) all := by
  have shape : objectives = Attributes.none.setAll <$> settings := by
    simp only [objectives, settings, map_bind, map_pure, Attributes.setAll]
  rw [shape, map_iff]
  refine exists_congr fun all => and_congr_right fun spelled => ?_
  rw [← timeToLive_setAll, ← timestamp_setAll (gives_settings _ _ spelled)]
  constructor
  · rintro rfl
    exact ⟨rfl, rfl⟩
  · rintro ⟨timeToLive, timestamp⟩
    exact congrArg₂ Attributes.mk timestamp timeToLive

/-- An optional `USING objectives`. -/
def usingClause : Phrase Attributes :=
  (do
    word .USING
    objectives) <|>
  pure .none

/-- An optional `USING TIMESTAMP value`. -/
def timestampClause : Phrase Attributes :=
  (do
    word .USING
    word .TIMESTAMP
    return { Attributes.none with timestamp := some (← integerOrMarker) }) <|>
  pure .none

/-! ### INSERT and DELETE -/

/-- The rest of INSERT: `INTO table '(' columns ')' VALUES '(' values ')' (USING ..)?` with two or
more columns and values. -/
def insertion : Phrase Insertion := do
  word .INTO
  let table ← tableName
  mark .leftParen
  let columns ← twoOrMore identifier
  mark .rightParen
  word .VALUES
  mark .leftParen
  let values ← twoOrMore value
  mark .rightParen
  let attributes ← usingClause
  return { table, columns, values, attributes }

/-- A column or an element of one, `column ('[' key ']')?`. -/
def deletionTarget : Phrase DeletionTarget :=
  (do
    let column ← identifier
    mark .leftBracket
    let key ← value
    mark .rightBracket
    return ⟨column, some key⟩) <|>
  (do return ⟨← identifier, none⟩)

/-- The rest of DELETE: `targets? FROM table (USING TIMESTAMP value)? WHERE relations`. -/
def deletion : Phrase Deletion := do
  let targets ← commaSeparated deletionTarget <|> pure []
  word .FROM
  let table ← tableName
  let attributes ← timestampClause
  word .WHERE
  let relations ← relations
  return { table, targets, attributes, relations }

/-! ### UPDATE -/

/-- The column itself, in whatever spelling. -/
def itself (column : Identifier) : Phrase Unit := do
  let other ← identifier
  require ((other == column) = true)

def sign : Phrase Sign := token fun item =>
  match item.kind with
  | .punctuation .plus => some .plus
  | .punctuation .minus => some .minus
  | _ => none

/-- The terms that count: integers and bind markers. -/
inductive Counts : Term → Prop
  | integer (digits : String) : Counts (.integer digits)
  | marker (ordinal : Nat) : Counts (.marker ordinal)

/-- What a sign and a value stand for: a term that counts is added to or taken from a counter, a
collection is added to or taken from a collection; no map is taken away. -/
inductive Changes : Sign → Value → Operation → Prop
  | increment {amount : Term} (counts : Counts amount) :
      Changes .plus (.term amount) (.counterIncrement amount)
  | decrement {amount : Term} (counts : Counts amount) :
      Changes .minus (.term amount) (.counterDecrement amount)
  | append (items : List Value) : Changes .plus (.list items) (.listAppend (.list items))
  | discard (items : List Value) : Changes .minus (.list items) (.listDiscard (.list items))
  | add (items : List Value) : Changes .plus (.set items) (.setAdd (.set items))
  | remove (items : List Value) : Changes .minus (.set items) (.setDiscard (.set items))
  | addNothing : Changes .plus .emptyBraces (.setAdd .emptyBraces)
  | removeNothing : Changes .minus .emptyBraces (.setDiscard .emptyBraces)
  | putAll (entries : List (Value × Value)) :
      Changes .plus (.map entries) (.mapPutAll (.map entries))

theorem changes_iff {sign : Sign} {operand : Value} {operation : Operation} :
    Changes sign operand operation ↔ Operation.delta sign operand = .ok operation := by
  constructor
  · intro changes
    cases changes with
    | increment counts => cases counts <;> rfl
    | decrement counts => cases counts <;> rfl
    | _ => rfl
  · intro made
    unfold Operation.delta at made
    split at made <;> cases made
    · exact .increment (.integer _)
    · exact .increment (.marker _)
    · exact .decrement (.integer _)
    · exact .decrement (.marker _)
    · exact .append _
    · exact .discard _
    · exact .add _
    · exact .remove _
    · exact .addNothing
    · exact .removeNothing
    · exact .putAll _

/-- The change `sign value`. -/
def signedChange : Phrase Operation := do
  let sign ← sign
  let operand ← value
  fun items operation => items = [] ∧ Changes sign operand operation

/-- Does the literal begin with a minus sign or consist of zeros? -/
def NotPositive (digits : String) : Prop :=
  digits.toList.head? = some '-' ∨ ∀ digit ∈ digits.toList, digit = '0'

/-- A change without a sign of its own: an integer that is not positive, or a bind marker. -/
def unsignedChange : Phrase Operation :=
  (do
    let digits ← integer
    require (NotPositive digits)
    return .counterDecrement (.integer (Grammar.magnitude digits))) <|>
  (.counterDecrement <$> marker)

/-- A change without a sign takes away an integer, less the minus sign that it may have of its own, or what
a bind marker stands for. -/
theorem unsignedChange_iff {items : List Numbered} {operation : Operation} :
    unsignedChange items operation ↔
      (∃ item digits amount, items = [item] ∧ item.kind = .integer digits ∧ NotPositive digits ∧
        (digits = "-" ++ amount ∨ digits.toList.head? ≠ some '-' ∧ digits = amount) ∧
        operation = .counterDecrement (.integer amount)) ∨
      ∃ item, items = [item] ∧ item.kind = .punctuation .questionMark ∧
        operation = .counterDecrement (.marker item.ordinal) := by
  unfold unsignedChange integer marker
  rw [orElse_iff, token_bind_iff, map_iff]
  refine or_congr ⟨?_, ?_⟩ ⟨?_, ?_⟩
  · rintro ⟨item, _, digits, rfl, seen, _, u, _, rfl, ⟨rfl, negative⟩, rfl, rfl⟩
    split at seen
    · rename_i found same
      obtain rfl := Option.some.inj seen
      exact ⟨item, found, _, rfl, same, negative, Grammar.magnitude_eq_iff.1 rfl, rfl⟩
    · exact absurd seen (by simp)
  · rintro ⟨item, digits, amount, rfl, same, negative, unsigned, rfl⟩
    refine ⟨item, [], digits, rfl, ?_, [], (), [], rfl, ⟨rfl, negative⟩, rfl, ?_⟩
    · rw [same]
    · rw [Grammar.magnitude_eq_iff.2 unsigned]
  · rintro ⟨term, ⟨item, rfl, seen⟩, rfl⟩
    dsimp only at seen
    by_cases same : item.kind = .punctuation .questionMark
    · rw [if_pos same] at seen
      obtain rfl := Option.some.inj seen
      exact ⟨item, rfl, same, rfl⟩
    · simp [same] at seen
  · rintro ⟨item, rfl, same, rfl⟩
    exact ⟨_, ⟨item, rfl, if_pos same⟩, rfl⟩

/-- What an assignment to an element stands for: an integer literal is an index into a list, and any other
key is one of a map. -/
inductive Puts : Value → Value → Operation → Prop
  | index (digits : String) (value : Value) :
      Puts (.term (.integer digits)) value (.listSetIndex (.term (.integer digits)) value)
  | key {key : Value} (other : ∀ digits, key ≠ .term (.integer digits)) (value : Value) :
      Puts key value (.mapPut key value)

theorem puts_iff {key value : Value} {operation : Operation} :
    Puts key value operation ↔ operation = Operation.element key value := by
  unfold Operation.element
  constructor
  · rintro (digits | other)
    · rfl
    · refine (if_neg fun isInteger => ?_).symm
      obtain ⟨digits, same⟩ := Value.isInteger_iff.1 isInteger
      exact other digits same
  · rintro rfl
    by_cases isInteger : key.isInteger = true
    · obtain ⟨digits, rfl⟩ := Value.isInteger_iff.1 isInteger
      exact .index digits value
    · rw [if_neg isInteger]
      exact .key (fun digits same => isInteger (Value.isInteger_iff.2 ⟨digits, same⟩)) value

/-- What follows the column in an assignment, one of
```text
'[' key ']' '=' value
'=' value
'=' value '+' column
'=' column ('+' | '-') value
'=' column (INTEGER | '?')
``` -/
def change (column : Identifier) : Phrase Operation :=
  (do
    mark .leftBracket
    let key ← value
    mark .rightBracket
    mark .equal
    return .element key (← value)) <|>
  (do
    mark .equal
    return .assign (← value)) <|>
  (do
    mark .equal
    let items ← value
    mark .plus
    itself column
    return .listPrepend items) <|>
  (do
    mark .equal
    itself column
    signedChange <|> unsignedChange)

/-- An assignment to an element as it is written, `'[' key ']' '=' value`. -/
def elementText : Phrase (Value × Value) := do
  mark .leftBracket
  let key ← value
  mark .rightBracket
  mark .equal
  return (key, ← value)

/-- A change that begins with a bracket sets an index of a list or a key of a map. -/
theorem change_element_iff {column : Identifier} {items : List Numbered} {operation : Operation}
    (bracket : opening items .endOfInput = .punctuation .leftBracket) :
    change column items operation ↔
      ∃ key value, elementText items (key, value) ∧ Puts key value operation := by
  have shape : (do
      mark .leftBracket
      let key ← value
      mark .rightBracket
      mark .equal
      return .element key (← value) : Phrase Operation) =
      (fun pair : Value × Value => Operation.element pair.1 pair.2) <$> elementText := by
    simp only [elementText, map_bind, map_pure]
  -- All other changes begin with an equals sign.
  have apart : ∀ phrase : Phrase Operation, ¬ (do mark .equal; phrase) items operation := by
    intro phrase spelled
    have opens : (do mark .equal; phrase : Phrase Operation).Opens anything (· = .punctuation .equal) :=
      .andThen (.ofKind rfl)
    have equal := opens _ _ .endOfInput spelled trivial
    rw [bracket] at equal
    exact absurd equal (by decide)
  unfold change
  simp only [orElse_iff, apart, or_false, shape, map_iff, Prod.exists, puts_iff]

/-- An assignment, `column change`. -/
def assignment : Phrase (Identifier × Operation) := do
  let column ← identifier
  return (column, ← change column)

/-- The rest of UPDATE: `table (USING ..)? SET assignments WHERE relations`. -/
def update : Phrase Update := do
  let table ← tableName
  let attributes ← usingClause
  word .SET
  let operations ← commaSeparated assignment
  word .WHERE
  let relations ← relations
  return { table, attributes, operations, relations }

/-! ### BATCH -/

/-- One of INSERT, UPDATE and DELETE. -/
def modification : Phrase Modification :=
  (do
    word .INSERT
    return .insert (← insertion)) <|>
  (do
    word .UPDATE
    return .update (← update)) <|>
  (do
    word .DELETE
    return .delete (← deletion))

/-- An optional `UNLOGGED | COUNTER`. -/
def batchMode : Phrase BatchMode :=
  (do
    word .UNLOGGED
    return .unlogged) <|>
  (do
    word .COUNTER
    return .counter) <|>
  pure .logged

/-- A statement of a batch, `modification ';'?`. -/
def batchItem : Phrase Modification := do
  let modification ← modification
  optionally (mark .semicolon)
  return modification

/-- The rest of a batch: `mode? BATCH (USING ..)? (modification ';'?)+ APPLY BATCH`. -/
def batch : Phrase Batch := do
  let mode ← batchMode
  word .BATCH
  let attributes ← usingClause
  let first ← batchItem
  let rest ← many batchItem
  word .APPLY
  word .BATCH
  return { mode, attributes, modifications := first :: rest }

/-! ### SELECT -/

/-- What can be counted: `*`, or an integer written `1`. -/
def countArgument : Phrase Unit := mark .star <|> token fun item =>
  match item.kind with
  | .integer _ => if item.lexeme.text = "1" then some () else none
  | _ => none

/-- A column in parentheses. -/
def functionArgument : Phrase Identifier := do
  mark .leftParen
  let column ← identifier
  mark .rightParen
  return column

/-- One of `column`, `WRITETIME '(' column ')'` and `TTL '(' column ')'`. -/
def selector : Phrase Selector :=
  (do
    word .WRITETIME
    return .writeTime (← functionArgument)) <|>
  (do
    word .TTL
    return .ttl (← functionArgument)) <|>
  (.column <$> identifier)

/-- One of `COUNT '(' ('*' | INTEGER) ')'`, `*` and `selector (',' selector)*`. -/
def projection : Phrase Projection :=
  (do
    word .COUNT
    mark .leftParen
    countArgument
    mark .rightParen
    return .count) <|>
  (do
    mark .star
    return .everything) <|>
  (.items <$> commaSeparated selector)

/-- An optional `ASC | DESC`, ascending where nothing is said. -/
def direction : Phrase Direction :=
  (do
    word .DESC
    return .descending) <|>
  (do
    optionally (word .ASC)
    return .ascending)

/-- A column with its direction, `column (ASC | DESC)?`. -/
def ordering : Phrase (Identifier × Direction) := do
  let column ← identifier
  return (column, ← direction)

/-- An optional `WHERE relations`. -/
def whereClause : Phrase (List Relation) :=
  (do
    word .WHERE
    relations) <|>
  pure []

/-- An optional `ORDER BY ordering (',' ordering)*`. -/
def orderClause : Phrase ColumnOrder :=
  (do
    word .ORDER
    word .BY
    return .ofList (← commaSeparated ordering)) <|>
  pure .empty

/-- An ORDER BY clause describes its ordering, and no clause describes the empty one. -/
theorem orderClause_iff {items : List Numbered} {order : ColumnOrder} :
    orderClause items order ↔ ∃ entries, ((do
        word .ORDER
        word .BY
        commaSeparated ordering) <|> pure [] : Phrase (List (Identifier × Direction))) items entries ∧
      order.Describes entries := by
  have shape : orderClause = ColumnOrder.ofList <$> ((do
      word .ORDER
      word .BY
      commaSeparated ordering) <|> pure []) := by
    simp only [orderClause, map_orElse, map_bind, map_pure]
    rfl
  rw [shape, map_iff]
  exact exists_congr fun entries => and_congr_right fun _ => ColumnOrder.describes_iff.symm

/-- An optional `LIMIT INTEGER`, where the integer fits into 32 bits. -/
def limitClause : Phrase Int :=
  (do
    word .LIMIT
    token fun item =>
      match item.kind with
      | .integer _ => Integer.bounded? 32 item.lexeme.text
      | _ => none) <|>
  pure Selection.defaultLimit

/-- A limit is the number that its text spells, which is one of 32 bits. -/
theorem limitClause_iff {items : List Numbered} {limit : Int} :
    limitClause items limit ↔ items = [] ∧ limit = 10000 ∨ ∃ before number digits,
      items = [before, number] ∧ before.kind = .keyword .LIMIT ∧ number.kind = .integer digits ∧
        Integer.value? number.lexeme.text = some limit ∧ -2147483648 ≤ limit ∧ limit < 2147483648 := by
  have fits : Integer.Fits 32 limit ↔ -2147483648 ≤ limit ∧ limit < 2147483648 := Iff.rfl
  unfold limitClause
  rw [orElse_iff, or_comm]
  refine or_congr Iff.rfl ⟨?_, ?_⟩
  · intro spelled
    obtain ⟨before, _, rfl, isLimit, number, rfl, seen⟩ := ofKind_bind_iff.1 spelled
    dsimp only at seen
    split at seen
    · rename_i digits isInteger
      obtain ⟨spells, within⟩ := Integer.bounded?_eq_some.1 seen
      exact ⟨before, number, digits, rfl, isLimit, isInteger, spells, fits.1 within⟩
    · exact absurd seen (by simp)
  · rintro ⟨before, number, digits, rfl, isLimit, isInteger, spells, within⟩
    refine ofKind_bind_iff.2 ⟨before, [number], rfl, isLimit, number, rfl, ?_⟩
    simp only [isInteger]
    exact Integer.bounded?_eq_some.2 ⟨spells, fits.2 within⟩

/-- An optional `ALLOW FILTERING`. -/
def filteringClause : Phrase Bool :=
  (do
    word .ALLOW
    word .FILTERING
    return true) <|>
  pure false

/-- The rest of SELECT: `projection FROM table (WHERE relations)?` and the optional clauses. -/
def selection : Phrase Selection := do
  let projection ← projection
  word .FROM
  let table ← tableName
  let relations ← whereClause
  let orderings ← orderClause
  let limit ← limitClause
  let allowFiltering ← filteringClause
  return { table, projection, relations, orderings, limit, allowFiltering }

/-! ### Statements -/

/-- INSERT, UPDATE, DELETE or a batch. -/
def modificationStatement : Phrase Statement :=
  (do
    word .INSERT
    return .insert (← insertion)) <|>
  (do
    word .UPDATE
    return .update (← update)) <|>
  (do
    word .DELETE
    return .delete (← deletion)) <|>
  (do
    word .BEGIN
    return .batch (← batch))

def selectStatement : Phrase Statement := do
  word .SELECT
  return .select (← selection)

/-- A statement with any number of semicolons around it, `';'* statement ';'*`. -/
def query (statement : Phrase Statement) : Phrase Statement := do
  let _ ← many (mark .semicolon)
  let statement ← statement
  let _ ← many (mark .semicolon)
  return statement

/-- The tokens of a text in front of its end of input. -/
def sentence (tokens : List Token) : List Numbered :=
  number 0 ((tokens.takeWhile fun token => token.kind ≠ .endOfInput).map (·.toLexeme))

end Cql.Language
