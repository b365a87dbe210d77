/-
Statements are well-formed, however much was wrong with them.

A statement that is given in spite of reports is a best effort.  Whatever was skipped or left out, what
is kept is well-formed: each rule yields well-formed values on every way through it, not only on those
without a report.

* `Grammar.yields_value`, `Grammar.yields_relations`, `Grammar.yields_assignment` — the parts of clauses;
* `Grammar.yields_insertion`, `Grammar.yields_update`, `Grammar.yields_deletion`,
  `Grammar.yields_batch` — statements that change rows;
* `Grammar.yields_tableDefinition` — tables;
* `Parser.wellFormed_of_outcome` — **every statement of an outcome is well-formed**.
-/
import Cql.Proofs.WellFormed
import Cql.Proofs.Yields

namespace Cql

namespace Grammar

open Rule.Yields

/-! ### Values and types -/

theorem yields_listLiteral {levels : Nat} {value : String → Rule Value}
    (h : ∀ context, (value context).Yields (·.WellFormed levels)) :
    (listLiteral value).Yields (·.WellFormed (levels + 1)) :=
  after fun _ => after fun _ => ite (pure (.list (by simp)))
    ((commaSeparated (h _)).bind fun _ ⟨_, all⟩ => after fun _ => pure (.list all))

theorem yields_mapEntry {levels : Nat} {value : String → Rule Value}
    (h : ∀ context, (value context).Yields (·.WellFormed levels)) :
    (mapEntry value).Yields fun entry => entry.1.WellFormed levels ∧ entry.2.WellFormed levels :=
  (h _).bind fun _ first => after fun _ => (h _).bind fun _ second => pure ⟨first, second⟩

theorem yields_bracedLiteral {levels : Nat} {value : String → Rule Value}
    (h : ∀ context, (value context).Yields (·.WellFormed levels)) :
    (bracedLiteral value).Yields (·.WellFormed (levels + 1)) := by
  refine after fun _ => after fun _ => ite (pure .emptyBraces) ?_
  refine (h _).bind fun _ first => after fun _ => ite ?_ ?_
  · refine (h _).bind fun _ second => (following (yields_mapEntry h) _).bind fun _ all =>
      after fun _ => pure (.map (List.cons_ne_nil _ _) ?_ ?_)
    · exact List.forall_mem_cons.2 ⟨first, fun entry mem => (all entry mem).1⟩
    · exact List.forall_mem_cons.2 ⟨second, fun entry mem => (all entry mem).2⟩
  · exact (following (h _) _).bind fun _ all => after fun _ =>
      pure (.set (List.cons_ne_nil _ _) (List.forall_mem_cons.2 ⟨first, all⟩))

theorem yields_scalarOr {levels : Nat} {list braced : Rule Value} (context : String)
    (first : list.Yields (·.WellFormed levels)) (second : braced.Yields (·.WellFormed levels)) :
    (scalarOr list braced context).Yields (·.WellFormed levels) := by
  refine after fun current => ?_
  split
  · exact first
  · exact second
  · exact after fun _ => pure (.term _)

theorem yields_valueWithin (levels : Nat) (context : String) :
    (valueWithin levels context).Yields (·.WellFormed levels) := by
  induction levels generalizing context with
  | zero => exact yields_scalarOr context tooDeep tooDeep
  | succ levels ih => exact yields_scalarOr context (yields_listLiteral ih) (yields_bracedLiteral ih)

theorem yields_value (context : String) : (value context).Yields (·.WellFormed maxNesting) :=
  yields_valueWithin maxNesting context

theorem yields_values (context : String) : (values context).Yields fun values =>
    values ≠ [] ∧ ∀ value ∈ values, value.WellFormed maxNesting := commaSeparated (yields_value _)

theorem yields_typeOf {levels : Nat} {P : DataType → Prop} {element : Rule DataType}
    (h : element.Yields P)
    (map : ∀ key value, P key → P value → (DataType.map key value).WithinLevels levels)
    (list : ∀ inner, P inner → (DataType.list inner).WithinLevels levels)
    (set : ∀ inner, P inner → (DataType.set inner).WithinLevels levels) :
    (typeOf element).Yields (·.WithinLevels levels) := by
  refine after fun current => ?_
  split
  · exact after fun _ => after fun _ => h.bind fun key first => after fun _ => h.bind fun value second =>
      after fun _ => pure (map key value first second)
  · exact after fun _ => after fun _ => h.bind fun inner holds => after fun _ => pure (list inner holds)
  · exact after fun _ => after fun _ => h.bind fun inner holds => after fun _ => pure (set inner holds)
  · exact after fun _ => pure (.custom _)
  · exact after fun _ => pure (.native _)

theorem yields_dataType : dataType.Yields (·.WithinLevels maxNesting) := by
  have within : ∀ levels, (typeWithin levels).Yields (·.WithinLevels levels) := by
    intro levels
    induction levels with
    | zero =>
      -- A collection type would need an element, which is too deep.
      exact yields_typeOf (P := fun _ => False) tooDeep (fun _ _ none => none.elim) (fun _ none => none.elim)
        fun _ none => none.elim
    | succ levels ih =>
      exact yields_typeOf ih (fun _ _ => .map) (fun _ => .list) fun _ => .set
  exact within maxNesting

/-! ### Relations -/

theorem yields_identifiers (context : String) : (identifiers context).Yields (· ≠ []) :=
  (commaSeparated (trivial _)).mono fun _ all => all.1

theorem yields_tokenRelation (first : Nat) :
    (tokenRelation first).Yields fun result => ∀ relation ∈ result, relation.WellFormed := by
  refine after fun _ => (yields_identifiers _).bind fun columns nonempty => after fun _ => after fun sign =>
    after fun _ => ite ?_ ?_
  · refine after fun _ => (yields_values _).bind fun arguments ⟨_, within⟩ => after fun _ => ?_
    split
    · rename_i arity
      exact pure (by simpa using .call nonempty arity within)
    · exact after fun _ => after fun _ => pure (by simp)
  · exact (yields_value _).bind fun value within => pure (by simpa using .value nonempty within)

theorem yields_relation : relation.Yields fun result => ∀ relation ∈ result, relation.WellFormed := by
  refine after fun _ => after fun _ => ite (yields_tokenRelation _) (after fun _ => after fun _ => ite ?_ ?_)
  · exact after fun _ => (yields_values _).bind fun _ ⟨nonempty, within⟩ => after fun _ =>
      pure (by simpa using .isIn nonempty within)
  · exact after fun _ => (yields_value _).bind fun _ within => pure (by simpa using .compare within)

theorem yields_relations : relations.Yields fun relations => ∀ relation ∈ relations, relation.WellFormed :=
  gather _ yields_relation

/-! ### INSERT and DELETE -/

theorem yields_integerOrMarker (context : String) :
    (integerOrMarker context).Yields fun term => term.counts = true := by
  refine after fun ordinal => ?_
  cases ordinal with
  | some ordinal => exact pure rfl
  | none =>
    refine accept _ _ fun lexeme term read => ?_
    dsimp only at read
    split at read
    · obtain rfl := Option.some.inj read
      rfl
    · exact absurd read (by simp)

theorem yields_objectives : objectives.Yields Attributes.WellFormed := by
  have objective : ∀ kind, (objectiveValue kind).Yields fun term => term.counts = true := fun _ =>
    (yields_integerOrMarker _).bind fun _ counts => after fun _ => after fun _ =>
      ite (after fun _ => pure counts) (pure counts)
  have settings : (Rule.many TokenKind.isObjective (fun _ => true) fun objective => do
      return (objective.kind, ← objectiveValue objective.kind)).Yields fun settings =>
        ∀ setting ∈ settings, setting.2.counts = true :=
    many fun lexeme => (objective lexeme.kind).bind fun _ counts => pure counts
  have folded : ∀ (settings : List (TokenKind × Term)) (attributes : Attributes),
      (∀ setting ∈ settings, setting.2.counts = true) → attributes.WellFormed →
      (settings.foldl (fun attributes setting => attributes.set setting.1 setting.2) attributes).WellFormed := by
    intro settings
    induction settings with
    | nil => exact fun _ _ h => h
    | cons setting rest ih =>
      intro attributes all h
      obtain ⟨first, others⟩ := List.forall_mem_cons.1 all
      exact ih _ others (h.set setting.1 first)
  exact after fun _ => ite
    (after fun _ => settings.bind fun _ all => pure (folded _ _ all Attributes.wellFormed_none))
    (settings.bind fun _ all => pure (folded _ _ all Attributes.wellFormed_none))

theorem yields_usingClause : usingClause.Yields Attributes.WellFormed :=
  after fun _ => ite yields_objectives (pure Attributes.wellFormed_none)

theorem yields_insertion : insertion.Yields Insertion.WellFormed :=
  after fun _ => after fun _ => after fun _ => (twoOrMore (trivial _) _).bind fun _ ⟨columns, _⟩ =>
    after fun _ => after fun _ => after fun _ => (twoOrMore (yields_value _) _).bind fun _ ⟨values, within⟩ =>
    after fun _ => yields_usingClause.bind fun _ attributes => pure ⟨columns, values, within, attributes⟩

theorem yields_elementKey : elementKey.Yields (·.WellFormed maxNesting) :=
  (yields_value _).bind fun _ within => after fun _ => pure within

theorem yields_deletionTarget :
    deletionTarget.Yields fun target => ∀ key ∈ target.key, key.WellFormed maxNesting :=
  after fun _ => after fun _ => ite
    (yields_elementKey.bind fun _ within => pure (by simpa using within)) (pure (by simp))

theorem yields_timestampClause : timestampClause.Yields fun attributes =>
    attributes.timeToLive = none ∧ attributes.WellFormed :=
  after fun _ => ite
    (after fun _ => (yields_integerOrMarker _).bind fun _ counts =>
      pure ⟨rfl, by simpa using counts, by simp [Attributes.none]⟩)
    (pure ⟨rfl, Attributes.wellFormed_none⟩)

theorem yields_deletion : deletion.Yields Deletion.WellFormed := by
  have rest : ∀ targets : List DeletionTarget,
      (∀ target ∈ targets, ∀ key ∈ target.key, key.WellFormed maxNesting) → (do
        Rule.keyword .FROM "in DELETE"
        let table ← tableName
        let attributes ← timestampClause
        Rule.keyword .WHERE "in DELETE"
        let relations ← relations
        return { table, targets, attributes, relations } : Rule Deletion).Yields Deletion.WellFormed :=
    fun _ keys => after fun _ => after fun _ => yields_timestampClause.bind fun _ ⟨noTtl, attributes⟩ =>
      after fun _ => yields_relations.bind fun _ relations => pure ⟨noTtl, keys, relations, attributes⟩
  refine after fun _ => ?_
  split
  · exact (pure rfl : (Pure.pure [] : Rule (List DeletionTarget)).Yields (· = [])).bind fun _ empty =>
      rest _ (by simp [empty])
  · exact (commaSeparated yields_deletionTarget).bind fun _ ⟨_, keys⟩ => rest _ keys

/-! ### UPDATE -/

theorem yields_elementAssignment : elementAssignment.Yields Operation.WellFormed :=
  yields_elementKey.bind fun _ first => after fun _ => (yields_value _).bind fun _ second =>
    pure (Operation.wellFormed_element first second)

theorem yields_plainAssignment (column : Identifier) :
    (plainAssignment column).Yields Operation.WellFormed := by
  refine (yields_value _).bind fun _ within => after fun _ => ite ?_ (pure (Operation.wellFormed_assign within))
  have prepends := Operation.wellFormed_listPrepend within
  exact after fun _ => after fun _ => ite (after fun _ => pure prepends) (pure prepends)

theorem yields_signedChange (sign : Sign) (checkColumns : Rule Unit) :
    (signedChange sign checkColumns).Yields Operation.WellFormed := by
  refine after fun _ => after fun _ => (yields_value _).bind fun operand within => after fun _ => ?_
  cases changes : Operation.delta sign operand with
  | ok operation => exact pure (Operation.wellFormed_of_delta within changes)
  | error fault => exact fail _ _

theorem yields_unsignedChange (digits : String) (checkColumns : Rule Unit) :
    (unsignedChange digits checkColumns).Yields Operation.WellFormed :=
  after fun _ => after fun _ => after fun _ =>
    ite (pure (Operation.wellFormed_counterDecrement _)) (abort _ _)

theorem yields_selfAssignment (column : Identifier) :
    (selfAssignment column).Yields Operation.WellFormed := by
  refine after fun _ => after fun _ => after fun current => ?_
  split
  · exact yields_signedChange _ _
  · exact yields_signedChange _ _
  · exact yields_unsignedChange _ _
  · exact after fun _ => after fun _ => pure (Operation.wellFormed_counterDecrement _)
  · exact expected _ _

theorem yields_assignment : assignment.Yields fun assignment => assignment.2.WellFormed := by
  refine after fun column => after fun _ => ite ?_ (after fun _ => after fun _ => ite ?_ ?_)
  · exact yields_elementAssignment.bind fun _ h => pure h
  · exact (yields_selfAssignment column).bind fun _ h => pure h
  · exact (yields_plainAssignment column).bind fun _ h => pure h

/-- Assignments are never left out, so some are kept of a clause that is. -/
theorem yields_assignments : assignments.Yields fun operations =>
    operations ≠ [] ∧ ∀ assignment ∈ operations, assignment.2.WellFormed :=
  (gather_ne_nil _ (map ((trivial _).mono fun _ _ => by simp))).and
    (gather _ (map (yields_assignment.mono fun _ h => by simpa using h)))

theorem yields_update : update.Yields Update.WellFormed :=
  after fun _ => yields_usingClause.bind fun _ attributes => after fun _ =>
    yields_assignments.bind fun _ ⟨nonempty, operations⟩ => after fun _ =>
    yields_relations.bind fun _ relations => pure ⟨nonempty, operations, relations, attributes⟩

/-! ### Batches -/

theorem yields_modificationAfter {opening : TokenKind} {rule : Rule Modification}
    (known : modificationAfter? opening = some rule) : rule.Yields Modification.WellFormed := by
  unfold modificationAfter? at known
  split at known
  · exact Option.some.inj known ▸ map yields_insertion
  · exact Option.some.inj known ▸ map yields_update
  · exact Option.some.inj known ▸ map yields_deletion
  · exact absurd known (by simp)

theorem yields_batchItem (opening : TokenKind) :
    (batchItem opening).Yields fun item => ∀ modification ∈ item, modification.WellFormed := by
  unfold batchItem
  cases known : modificationAfter? opening with
  | none => exact after fun _ => after fun _ => after fun _ => pure (by simp)
  | some rule =>
    refine (yields_modificationAfter known).attempt.bind fun result holds => ?_
    cases result with
    | none => exact after fun _ => pure (by simp)
    | some modification => exact after fun _ => pure holds

theorem yields_batch : batch.Yields Batch.WellFormed := by
  have items : modifications.Yields fun modifications =>
      ∀ modification ∈ modifications, modification.WellFormed := by
    refine (many fun lexeme => yields_batchItem lexeme.kind).bind fun items all => pure fun modification mem => ?_
    obtain ⟨item, inItems, same⟩ := List.mem_filterMap.1 mem
    exact all item inItems modification same
  refine after fun _ => after fun _ => yields_usingClause.bind fun _ attributes =>
    items.bind fun _ modifications => after fun _ => ?_
  exact ite (after fun _ => after fun _ => after fun _ => pure ⟨modifications, attributes⟩)
    (after fun _ => after fun _ => pure ⟨modifications, attributes⟩)

/-! ### SELECT -/

theorem yields_orderClause : orderClause.Yields ColumnOrder.WellFormed :=
  after fun _ => ite (after fun _ => after fun _ => pure (ColumnOrder.wellFormed_ofList _))
    (pure ColumnOrder.wellFormed_empty)

theorem yields_selection : selection.Yields Selection.WellFormed := by
  have counts : ∀ projection : Projection, projection.isCount = true → projection.selectors = [] := by
    intro projection isCount
    cases projection with
    | count => rfl
    | _ => cases isCount
  have clauses : ∀ (table : TableName) (projection : Projection) (relations : List Relation),
      (∀ relation ∈ relations, relation.WellFormed) → (do
        let orderings ← orderClause
        let limit ← limitClause
        let allowFiltering ← filteringClause
        return ⟨table, projection, relations, orderings, limit, allowFiltering⟩ :
          Rule Selection).Yields Selection.WellFormed :=
    fun _ projection _ relations => yields_orderClause.bind fun _ orderings => after fun _ => after fun _ =>
      pure ⟨counts projection, relations, orderings⟩
  refine after fun projection => after fun _ => after fun table => after fun _ => ?_
  split
  · exact yields_relations.bind fun _ relations => clauses _ _ _ relations
  · exact (pure rfl : (Pure.pure [] : Rule (List Relation)).Yields (· = [])).bind fun _ empty =>
      clauses _ _ _ (by simp [empty])

/-! ### Schemas -/

theorem yields_properties : properties.Yields Properties.WellFormed :=
  after fun _ => pure (Properties.wellFormed_ofList _)

theorem yields_keyspaceDefinition :
    keyspaceDefinition.Yields fun definition => definition.properties.WellFormed :=
  after fun _ => after fun _ => yields_properties.bind fun _ h => pure h

theorem yields_keyComponent : keyComponent.Yields (· ≠ []) :=
  after fun _ => ite ((yields_identifiers _).bind fun _ nonempty => after fun _ => pure nonempty)
    (after fun _ => pure (by simp))

section

variable {P : TableElement → Prop} (keyComponent : ∀ columns, columns ≠ [] → P (.keyComponent columns))
  (clusteringColumn : ∀ name, P (.clusteringColumn name))
  (column : ∀ name type, type.WithinLevels maxNesting → P (.column name type))
include keyComponent clusteringColumn column

/-- What stands in the parentheses are columns and parts of keys. -/
theorem yields_tableElement : tableElement.Yields fun elements => ∀ element ∈ elements, P element := by
  refine restoring _ (after fun _ => ite ?_ ?_)
  · refine after fun _ => after fun _ => yields_keyComponent.bind fun _ nonempty => after fun _ => pure ?_
    refine List.forall_mem_cons.2 ⟨keyComponent _ nonempty, fun element mem => ?_⟩
    obtain ⟨name, -, rfl⟩ := List.mem_map.1 mem
    exact clusteringColumn name
  · refine after fun name => yields_dataType.bind fun type within => after fun _ => ite ?_ ?_
    · exact after fun _ => pure (List.forall_mem_cons.2
        ⟨keyComponent _ (List.cons_ne_nil _ _), List.forall_mem_singleton.2 (column name type within)⟩)
    · exact pure (List.forall_mem_singleton.2 (column name type within))

theorem yields_tableElements : tableElements.Yields fun elements => ∀ element ∈ elements, P element := by
  have one := yields_tableElement keyComponent clusteringColumn column
  have item : (do if (← Rule.kind) = .punctuation .rightParen then return [] else tableElement :
      Rule (List TableElement)).Yields fun elements => ∀ element ∈ elements, P element :=
    after fun _ => ite (pure (by simp)) one
  refine one.bind fun first holds => (following item _).bind fun rest all => pure ?_
  intro element mem
  obtain ⟨elements, inLists, mem⟩ := List.mem_flatten.1 mem
  exact List.forall_mem_cons.2 ⟨holds, all⟩ elements inLists element mem

end

section

variable {P : TableElement → Prop} (ordering : ∀ column direction, P (.ordering column direction))
  (compactStorage : P .compactStorage) (property : ∀ name value, P (.property name value))
include ordering compactStorage property

/-- An option is no column and no part of a key. -/
theorem yields_tableOption : tableOption.Yields fun options => ∀ option ∈ options.kept, P option := by
  have entry : clusteringEntry.Yields P := after fun _ => after fun _ => pure (ordering _ _)
  refine after fun _ => after fun _ => ite ?_ (ite ?_ ?_)
  · exact after fun _ => after fun _ => pure (List.forall_mem_singleton.2 compactStorage)
  · exact after fun _ => after fun _ => after fun _ => after fun _ => closed _ (salvaged entry)
  · refine after fun setting => pure fun option mem => ?_
    obtain ⟨⟨name, value⟩, -, rfl⟩ := List.mem_map.1 mem
    exact property name value

theorem yields_tableOptions : tableOptions.Yields fun options => ∀ option ∈ options, P option := by
  have option := yields_tableOption ordering compactStorage property
  refine after fun _ => ite ((separated (restoring _ option) _).bind fun lists ⟨_, all⟩ =>
    pure fun option mem => ?_) (pure (by simp))
  obtain ⟨options, inLists, mem⟩ := List.mem_flatten.1 mem
  exact all options inLists option mem

end

theorem yields_tableDefinition : tableDefinition.Yields TableDefinition.WellFormed := by
  have elements : tableElements.Yields fun elements => ∀ element ∈ elements, element.WellFormed :=
    yields_tableElements (fun _ nonempty => nonempty) (fun _ => True.intro) fun _ _ within => within
  have options : tableOptions.Yields fun options => ∀ option ∈ options, option.WellFormed :=
    yields_tableOptions (fun _ _ => True.intro) True.intro fun _ _ => True.intro
  refine after fun table => after fun _ => elements.bind fun elements all => after fun _ =>
    options.bind fun options all' => pure (TableDefinition.wellFormed_ofElements table ?_)
  intro element mem
  exact (List.mem_append.1 mem).elim (all element) (all' element)

theorem yields_tableChange : tableChange.Yields TableChange.WellFormed := by
  refine after fun _ => ite ?_ (after fun _ => ite ?_ (after fun _ => ite ?_
    (after fun _ => ite ?_ (after fun _ => ite ?_ (expected _ _)))))
  · exact after fun _ => after fun _ => yields_dataType.bind fun _ within => pure within
  · exact after fun _ => yields_dataType.bind fun _ within => pure within
  · exact after fun _ => pure True.intro
  · exact yields_properties.bind fun _ h => pure h
  · exact (separated (trivial _) _).bind fun _ ⟨nonempty, _⟩ => pure nonempty

theorem yields_create : create.Yields Statement.WellFormed :=
  after fun _ => ite (yields_keyspaceDefinition.bind fun _ h => pure h)
    (after fun _ => ite (yields_tableDefinition.bind fun _ h => pure h)
      (after fun _ => ite (after fun _ => pure True.intro) (expected _ _)))

theorem yields_drop : drop.Yields Statement.WellFormed :=
  after fun _ => ite (after fun _ => pure True.intro)
    (after fun _ => ite (after fun _ => pure True.intro)
      (after fun _ => ite (after fun _ => pure True.intro) (expected _ _)))

theorem yields_alter : alter.Yields Statement.WellFormed :=
  after fun _ => ite (yields_keyspaceDefinition.bind fun _ h => pure h)
    (after fun _ => ite (after fun _ => yields_tableChange.bind fun _ h => pure h) (expected _ _))

/-! ### Statements -/

theorem yields_statementAfter {opening : TokenKind} {rule : Rule Statement}
    (found : statementAfter? opening = some rule) : rule.Yields Statement.WellFormed := by
  unfold statementAfter? at found
  split at found
  case h_1 => exact Option.some.inj found ▸ map yields_selection
  case h_2 => exact Option.some.inj found ▸ map yields_insertion
  case h_3 => exact Option.some.inj found ▸ map yields_update
  case h_4 => exact Option.some.inj found ▸ map yields_deletion
  case h_5 => exact Option.some.inj found ▸ map yields_batch
  case h_6 => exact Option.some.inj found ▸ after fun _ => pure True.intro
  case h_7 => exact Option.some.inj found ▸ after fun _ => pure True.intro
  case h_8 => exact Option.some.inj found ▸ yields_create
  case h_9 => exact Option.some.inj found ▸ yields_drop
  case h_10 => exact Option.some.inj found ▸ yields_alter
  case h_11 => exact Option.some.inj found ▸ after fun _ => pure True.intro
  case h_12 => exact Option.some.inj found ▸ after fun _ => pure True.intro
  case h_13 => exact Option.some.inj found ▸ after fun _ => pure True.intro
  case h_14 => exact absurd found (by simp)

theorem yields_query : query.Yields fun found => found.1.WellFormed := by
  have statement : statement.Yields Statement.WellFormed := by
    refine after fun current => ?_
    cases found : statementAfter? current with
    | none => exact expected _ _
    | some rest => exact after fun _ => yields_statementAfter found
  exact after fun _ => after fun _ => statement.bind fun _ h => after fun _ => after fun _ => after fun _ =>
    ite (after fun _ => after fun _ => after fun _ => pure h) (pure h)

end Grammar

/-! ### Outcomes -/

/-- **Every statement of an outcome is well-formed**, whatever was reported on the way to it. -/
theorem Parser.wellFormed_of_outcome (parser : Parser) {parsed : ParsedStatement}
    (found : parser.outcome.statement = some parsed) : parsed.statement.WellFormed := by
  replace found : parser.statement? parser.reply = some parsed := found
  unfold statement? at found
  split at found
  · rename_i statement place result
    obtain rfl := Option.some.inj found
    exact Grammar.yields_query parser.start _ result
  · exact absurd found (by simp)

/-- The tokens of `BEGIN BATCH UPDATE t SET = , b[1] = {2} WHERE TOKEN(a) = TOKEN(1, 2) APPLY BATCH`.  The
first assignment is broken, and the arguments of the two TOKENs differ in number. -/
def Parser.faultyUpdate : List Token :=
  [.keyword .BEGIN, .keyword .BATCH, .keyword .UPDATE, .identifier "t", .keyword .SET,
    .punctuation .equal, .punctuation .comma, .identifier "b", .punctuation .leftBracket, .integer "1",
    .punctuation .rightBracket, .punctuation .equal, .punctuation .leftBrace, .integer "2",
    .punctuation .rightBrace, .keyword .WHERE, .keyword .TOKEN, .punctuation .leftParen, .identifier "a",
    .punctuation .rightParen, .punctuation .equal, .keyword .TOKEN, .punctuation .leftParen,
    .integer "1", .punctuation .comma, .integer "2", .punctuation .rightParen, .keyword .APPLY,
    .keyword .BATCH].map fun kind => ⟨⟨kind, kind.render⟩, .point 0⟩

theorem Parser.wellFormed_of_faultyUpdate : ∃ parsed,
    (ofTokens faultyUpdate).outcome.statement = some parsed ∧
      (ofTokens faultyUpdate).outcome.diagnostics.length = 2 ∧ parsed.statement.WellFormed := by
  have isFound : (ofTokens faultyUpdate).outcome.statement.isSome = true := by decide +kernel
  obtain ⟨parsed, found⟩ := Option.isSome_iff_exists.1 isFound
  exact ⟨parsed, found, by decide +kernel, wellFormed_of_outcome (ofTokens faultyUpdate) found⟩

end Cql
