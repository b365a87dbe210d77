/-
What the operations of accepted statements hold.

The variant of an operation says what its operand is: a number for a counter, a list, a set or a map for
a collection.  This holds of every operation of an accepted statement, but for one.  What is prepended to
a column may be any value, since nothing looks at it.

* `Operation.fits` — whether an operand is of the kind that its operation is for;
* `Language.gives_change` — the operation of an assignment;
* `operands_of_parse` — the operations of an accepted source;
* `Parser.accepts_prepending` — any value can be prepended.
-/
import Cql.Proofs.Overwritten

namespace Cql

/-! ### Operands -/

/-- Can the term change a counter? -/
def Term.counts : Term → Bool
  | integer _ | marker _ => true
  | _ => false

namespace Operation

/-- Is the operand of the kind that the operation is for?  A counter changes by an integer or a bind
marker; a list by a list, in front also by a bind marker; a set by a set or empty braces; a map by a
map.  Any value can be assigned. -/
def fits : Operation → Bool
  | counterIncrement amount | counterDecrement amount => amount.counts
  | listAppend items | listDiscard items => items.collectionKind? = some .list
  | listPrepend items => items.collectionKind? = some .list || items.isMarker
  | setAdd items | setDiscard items => items.collectionKind? = some .set
  | mapPutAll entries => entries.collectionKind? = some .map
  | assign _ | listSetIndex _ _ | mapPut _ _ => true

/-- The operation fits, or it puts some value in front of a list. -/
def FitsOrPrepends (operation : Operation) : Prop :=
  operation.fits = true ∨ ∃ value, operation = .listPrepend value

theorem fits_element (key value : Value) : (element key value).fits = true := by
  unfold element
  split
  · rfl
  · rfl

theorem fits_of_changes {sign : Sign} {operand : Value} {operation : Operation}
    (changes : Language.Changes sign operand operation) : operation.fits = true := by
  cases changes with
  | increment counts => cases counts <;> rfl
  | decrement counts => cases counts <;> rfl
  | _ => rfl

end Operation

/-- The assignments of a statement that can stand in a batch. -/
def Modification.assignments : Modification → List (Identifier × Operation)
  | .update change => change.operations
  | .insert _ | .delete _ => []

/-- The assignments of a statement, those of a batch included. -/
def Statement.assignments : Statement → List (Identifier × Operation)
  | .update change => change.operations
  | .batch group => group.modifications.flatMap Modification.assignments
  | _ => []

/-! ### Assignments -/

namespace Language

open Phrase

theorem gives_signedChange : signedChange.Gives fun operation => operation.fits = true := by
  refine .bind fun sign => .bind fun operand => ?_
  rintro items operation ⟨-, changes⟩
  exact Operation.fits_of_changes changes

/-- Without a sign there is an integer or a bind marker, and the change is to a counter. -/
theorem gives_unsignedChange : unsignedChange.Gives fun operation => operation.fits = true := by
  refine .orElse (.bind fun digits => .bind fun _ => .pure rfl) (.map ?_)
  rintro items term ⟨item, rfl, seen⟩
  dsimp only at seen
  split at seen
  · obtain rfl := Option.some.inj seen
    rfl
  · exact absurd seen (by simp)

/-- An operation fits unless a value stands in front of the column. -/
theorem gives_change (column : Identifier) : (change column).Gives Operation.FitsOrPrepends := by
  refine .orElse ?_ (.orElse ?_ (.orElse ?_ ?_))
  · exact .bind fun _ => .bind fun key => .bind fun _ => .bind fun _ => .bind fun value =>
      .pure (.inl (Operation.fits_element key value))
  · exact .bind fun _ => .bind fun _ => .pure (.inl rfl)
  · exact .bind fun _ => .bind fun _ => .bind fun _ => .bind fun _ => .pure (.inr ⟨_, rfl⟩)
  · refine .bind fun _ => .bind fun _ => .orElse ?_ ?_
    · exact fun items operation spelled => .inl (gives_signedChange items operation spelled)
    · exact fun items operation spelled => .inl (gives_unsignedChange items operation spelled)

theorem gives_update : update.Gives fun change =>
    ∀ assignment ∈ change.operations, assignment.2.FitsOrPrepends := by
  have one : assignment.Gives fun assignment => assignment.2.FitsOrPrepends :=
    .bind fun column => (gives_change column).andThen fun operation holds => .pure holds
  have all : (commaSeparated assignment).Gives fun assignments =>
      ∀ assignment ∈ assignments, assignment.2.FitsOrPrepends := .separated one
  refine .bind fun table => .bind fun attributes => .bind fun _ => ?_
  exact all.andThen fun operations hold => .bind fun _ => .bind fun relations => .pure hold

theorem gives_modification : modification.Gives fun modification =>
    ∀ assignment ∈ modification.assignments, assignment.2.FitsOrPrepends := by
  have none : ∀ assignment ∈ ([] : List (Identifier × Operation)), assignment.2.FitsOrPrepends :=
    fun _ mem => absurd mem List.not_mem_nil
  refine .orElse (.bind fun _ => .bind fun _ => .pure none) (.orElse ?_ ?_)
  · exact .bind fun _ => gives_update.andThen fun change hold => .pure hold
  · exact .bind fun _ => .bind fun _ => .pure none

theorem gives_batch : batch.Gives fun batch =>
    ∀ modification ∈ batch.modifications, ∀ assignment ∈ modification.assignments,
      assignment.2.FitsOrPrepends := by
  have item : batchItem.Gives fun modification =>
      ∀ assignment ∈ modification.assignments, assignment.2.FitsOrPrepends :=
    gives_modification.andThen fun modification hold => .bind fun _ => .pure hold
  refine .bind fun mode => .bind fun _ => .bind fun attributes => ?_
  refine item.andThen fun first holds => (Gives.many item).andThen fun rest hold => ?_
  exact .bind fun _ => .bind fun _ => .pure (List.forall_mem_cons.2 ⟨holds, hold⟩)

/-- Only UPDATE and batches have assignments. -/
theorem gives_anyStatement : anyStatement.Gives fun statement =>
    ∀ assignment ∈ statement.assignments, assignment.2.FitsOrPrepends := by
  have none : ∀ assignment ∈ ([] : List (Identifier × Operation)), assignment.2.FitsOrPrepends :=
    fun _ mem => absurd mem List.not_mem_nil
  have changes : modificationStatement.Gives fun statement =>
      ∀ assignment ∈ statement.assignments, assignment.2.FitsOrPrepends := by
    refine .orElse (.bind fun _ => .bind fun _ => .pure none) (.orElse ?_ (.orElse ?_ ?_))
    · exact .bind fun _ => gives_update.andThen fun change hold => .pure hold
    · exact .bind fun _ => .bind fun _ => .pure none
    · refine .bind fun _ => gives_batch.andThen fun batch hold => .pure fun assignment mem => ?_
      obtain ⟨modification, inside, mem⟩ := List.mem_flatMap.1 mem
      exact hold modification inside assignment mem
  refine changes.orElse (.orElse (.bind fun _ => .bind fun _ => .pure none) ?_)
  -- What an administrative statement looks like does not matter: it is no UPDATE and no batch.
  rintro items statement ⟨administrative, -⟩ assignment mem
  cases statement with
  | update | batch => exact absurd administrative (by simp [Statement.isAdministrative,
      Statement.isModification])
  | _ => exact absurd mem List.not_mem_nil

end Language

/-! ### Accepted sources -/

/-- In what is accepted, every operation holds an operand of its kind, unless it puts a value in front
of a list. -/
theorem operands_of_parse (source : String) (parsed : ParsedStatement)
    (accepted : parse source = .ok parsed) :
    ∀ assignment ∈ parsed.statement.assignments,
      assignment.2.fits = true ∨ ∃ value, assignment.2 = .listPrepend value := by
  intro assignment mem
  obtain ⟨-, place, after, reads, -⟩ := Parser.succeeds_iff.1 (parse_eq_ok_iff.1 accepted)
  obtain ⟨_, _, _, _, _, -, -, spelled, -⟩ := Parser.query_iff.1 (Parser.sound_sentence reads)
  exact Language.gives_anyStatement _ _ spelled assignment mem

/-- A statement with operations of several kinds: one of them puts a list in front of a column. -/
theorem operands_of_parse_update : ∃ parsed,
    parse "UPDATE t SET n = n + 1, p = [1] + p, s = s - {}, m = m + {1: ?} WHERE k = 1" = .ok parsed ∧
      parsed.statement.assignments.map (·.2.fits) = [true, true, true, true] ∧
      ∀ assignment ∈ parsed.statement.assignments,
        assignment.2.fits = true ∨ ∃ value, assignment.2 = .listPrepend value := by
  have fitting : (parse "UPDATE t SET n = n + 1, p = [1] + p, s = s - {}, m = m + {1: ?} WHERE k = 1"
      ).toOption.map (·.statement.assignments.map (·.2.fits)) = some [true, true, true, true] := by
    rw [toOption_parse, parseOutcome, tokenize, String.toList_ofList]
    decide +kernel
  cases accepted :
    parse "UPDATE t SET n = n + 1, p = [1] + p, s = s - {}, m = m + {1: ?} WHERE k = 1" with
  | error rejection =>
    rw [accepted] at fitting
    exact absurd fitting (by simp [Except.toOption])
  | ok parsed =>
    rw [accepted] at fitting
    exact ⟨parsed, rfl, Option.some.inj fitting, operands_of_parse _ parsed accepted⟩

/-- Not every operation of an accepted source fits: here an integer is put in front of a list. -/
theorem not_all_operands_fit : ¬ ∀ source parsed, parse source = .ok parsed →
    ∀ assignment ∈ parsed.statement.assignments, assignment.2.fits = true := by
  intro claimed
  have unfit : (parse "UPDATE t SET p = 5 + p WHERE k = 1").toOption.map
      (·.statement.assignments.map (·.2.fits)) = some [false] := by
    rw [toOption_parse, parseOutcome, tokenize, String.toList_ofList]
    decide +kernel
  cases accepted : parse "UPDATE t SET p = 5 + p WHERE k = 1" with
  | error rejection =>
    rw [accepted] at unfit
    exact absurd unfit (by simp [Except.toOption])
  | ok parsed =>
    rw [accepted] at unfit
    have one : parsed.statement.assignments.map (·.2.fits) = [false] := Option.some.inj unfit
    have inside : false ∈ parsed.statement.assignments.map (·.2.fits) := by
      rw [one]
      exact List.mem_singleton_self false
    obtain ⟨assignment, mem, fails⟩ := List.mem_map.1 inside
    rw [claimed _ parsed accepted assignment mem] at fails
    exact absurd fails (by simp)

/-! ### Values in front of a column -/

/-- Any value can stand in front of the column. -/
theorem Language.assignment_prepending {column equal plus itself : Numbered} {items : List Numbered}
    {name : Identifier} {value : Value} (named : Identifier.ofLexeme? column.lexeme = some name)
    (assigns : equal.kind = .punctuation .equal) (spelled : Language.value items value)
    (adds : plus.kind = .punctuation .plus) (again : Identifier.ofLexeme? itself.lexeme = some name) :
    Language.assignment (column :: equal :: (items ++ [plus, itself])) (name, .listPrepend value) := by
  have column : Language.itself name [itself] () :=
    Phrase.token_bind_iff.2 ⟨itself, [], name, rfl, again, rfl, Identifier.beq_iff.2 rfl⟩
  have change : Language.change name (equal :: (items ++ [plus, itself])) (.listPrepend value) := by
    refine .inr (.inr (.inl (Phrase.ofKind_bind_iff.2 ⟨equal, _, rfl, assigns, ?_⟩)))
    refine ⟨items, value, [plus, itself], rfl, spelled, Phrase.ofKind_bind_iff.2 ⟨plus, _, rfl, adds, ?_⟩⟩
    exact ⟨[itself], (), [], rfl, column, rfl, rfl⟩
  refine Phrase.token_bind_iff.2 ⟨_, _, name, rfl, named, ?_⟩
  exact ⟨_, _, [], (List.append_nil _).symm, change, rfl, rfl⟩

namespace Parser

open Phrase

/-- The lexemes of `UPDATE t SET p =`. -/
def prependingFront : List Lexeme :=
  [⟨.keyword .UPDATE, "UPDATE"⟩, ⟨.identifier "t", "t"⟩, ⟨.keyword .SET, "SET"⟩,
   ⟨.identifier "p", "p"⟩, ⟨.punctuation .equal, "="⟩]

/-- The lexemes of `+ p WHERE k = 1`. -/
def prependingRest : List Lexeme :=
  [⟨.punctuation .plus, "+"⟩, ⟨.identifier "p", "p"⟩, ⟨.keyword .WHERE, "WHERE"⟩,
   ⟨.identifier "k", "k"⟩, ⟨.punctuation .equal, "="⟩, ⟨.integer "1", "1"⟩]

/-- What `UPDATE t SET p = value + p WHERE k = 1` stands for. -/
def prepending (value : Value) : Update where
  table := ⟨none, .unquoted "t"⟩
  attributes := .none
  operations := [(.unquoted "p", .listPrepend value)]
  relations := [.compare (.unquoted "k") .equal (.term (.integer "1"))]

/-- The condition `k = 1`. -/
theorem relations_keyIsOne (ordinal : Nat) : Language.relations
    [⟨⟨.identifier "k", "k"⟩, ordinal⟩, ⟨⟨.punctuation .equal, "="⟩, ordinal⟩,
      ⟨⟨.integer "1", "1"⟩, ordinal⟩] [.compare (.unquoted "k") .equal (.term (.integer "1"))] := by
  have one : Language.value [⟨⟨.integer "1", "1"⟩, ordinal⟩] (.term (.integer "1")) :=
    .inl (map_iff.2 ⟨_, .inl ⟨_, rfl, rfl⟩, rfl⟩)
  have relation : Language.relation [⟨⟨.identifier "k", "k"⟩, ordinal⟩,
      ⟨⟨.punctuation .equal, "="⟩, ordinal⟩, ⟨⟨.integer "1", "1"⟩, ordinal⟩]
      (.compare (.unquoted "k") .equal (.term (.integer "1"))) := by
    refine .inr (.inl (token_bind_iff.2 ⟨_, _, _, rfl, rfl, ?_⟩))
    exact token_bind_iff.2 ⟨_, _, _, rfl, rfl, bind_iff.2 ⟨_, _, [], rfl, one, rfl, rfl⟩⟩
  exact ⟨_, _, [], rfl, relation, [], [], [], rfl, .none, rfl, rfl⟩

theorem statement_prepending {items : List Numbered} {value : Value}
    (spelled : Language.value items value) (next : Nat) : Language.statement
      (number 0 prependingFront ++ (items ++ number next prependingRest))
      (.update (prepending value)) := by
  have table : Language.tableName [⟨⟨.identifier "t", "t"⟩, 0⟩] ⟨none, .unquoted "t"⟩ :=
    .inr (token_bind_iff.2 ⟨_, [], _, rfl, rfl, rfl, rfl⟩)
  have operations : commaSeparated Language.assignment (⟨⟨.identifier "p", "p"⟩, 0⟩ ::
      ⟨⟨.punctuation .equal, "="⟩, 0⟩ :: (items ++
        [⟨⟨.punctuation .plus, "+"⟩, next⟩, ⟨⟨.identifier "p", "p"⟩, next⟩]))
      [(.unquoted "p", .listPrepend value)] :=
    ⟨_, _, [], (List.append_nil _).symm, Language.assignment_prepending rfl rfl spelled rfl rfl,
      [], [], [], rfl, .none, rfl, rfl⟩
  -- The assignment ends in front of WHERE.
  have parts : items ++ number next prependingRest =
      (items ++ [⟨⟨.punctuation .plus, "+"⟩, next⟩, ⟨⟨.identifier "p", "p"⟩, next⟩]) ++
        [⟨⟨.keyword .WHERE, "WHERE"⟩, next⟩, ⟨⟨.identifier "k", "k"⟩, next⟩,
          ⟨⟨.punctuation .equal, "="⟩, next⟩, ⟨⟨.integer "1", "1"⟩, next⟩] := by
    rw [List.append_assoc]
    rfl
  have update : Language.update
      (⟨⟨.identifier "t", "t"⟩, 0⟩ :: ⟨⟨.keyword .SET, "SET"⟩, 0⟩ :: ⟨⟨.identifier "p", "p"⟩, 0⟩ ::
        ⟨⟨.punctuation .equal, "="⟩, 0⟩ :: (items ++ number next prependingRest))
      (prepending value) := by
    rw [parts]
    refine ⟨_, _, _, rfl, table, [], .none, _, rfl, .inr ⟨rfl, rfl⟩, ?_⟩
    refine ofKind_bind_iff.2 ⟨_, _, rfl, rfl, _, _, _, rfl, operations, ?_⟩
    exact ofKind_bind_iff.2 ⟨_, _, rfl, rfl, _, _, [], rfl, relations_keyIsOne next, rfl, rfl⟩
  refine .inl (.inr (.inl ?_))
  exact ofKind_bind_iff.2 ⟨_, _, rfl, rfl, _, _, [], (List.append_nil _).symm, update, rfl, rfl⟩

/-- Whatever value is put in front of a column, the statement is accepted and takes it for a list. -/
theorem accepts_prepending (tokens : List Token) (items : List Lexeme) (value : Value)
    (spelled : Language.value (number 0 items) value)
    (same : Language.sentence tokens = number 0 (prependingFront ++ (items ++ prependingRest))) :
    ∃ parsed, (ofTokens tokens).outcome.isSuccess = true ∧
      (ofTokens tokens).outcome.statement = some parsed ∧
        parsed.statement = .update (prepending value) := by
  obtain ⟨next, numbered⟩ := number_append 0 items prependingRest
  have sentence : Language.sentence tokens =
      number 0 prependingFront ++ (number 0 items ++ number next prependingRest) := by
    rw [same, ← numbered]
    rfl
  have statement : Language.query Language.statement (Language.sentence tokens)
      (.update (prepending value)) := by
    refine query_iff.2 ⟨[], Language.sentence tokens, [], [], [], (List.append_nil _).symm, .none,
      ?_, .none⟩
    rw [sentence]
    exact statement_prepending spelled next
  obtain ⟨parsed, ⟨success, found⟩, same⟩ := ofTokens_succeeds_iff.2 (reads_sentence_iff.2 statement)
  exact ⟨parsed, success, found, same⟩

end Parser

end Cql
