/-
Which CREATE TABLE statements are accepted, and which table they define.

The grammar allows an item to be missing after every comma.  Accepted are its texts in which none is
missing, except in front of the closing parenthesis; `CREATE TABLE t (a int,, b int)` is not.  The table
of an accepted text is filled from its items and options, whatever their order and number.

* `Parser.accepts_createTable_iff` — what is accepted; `Parser.not_accepts_tableWithGap` — a text of the
  grammar that is not;
* `Language.TableText.Describes` — how a table agrees with a text;
* `Parser.definition_of_createTable` — the table of an accepted text agrees with it.
-/
import Cql.Proofs.Acceptance
import Cql.Proofs.LastWins

namespace Cql

open Phrase

namespace Language

theorem tableStatement_iff {items : List Numbered} {statement : Statement} :
    tableStatement items statement ↔ ∃ text, tableCreation items text ∧ text.Gapless ∧
      statement = .createTable text.definition := by
  constructor
  · rintro ⟨first, u, _, rfl, creates, second, u', _, rfl, table, rest, text, _, rfl, spelled, rfl, rfl⟩
    obtain ⟨spelled, gapless⟩ := gaplessText_iff.1 spelled
    refine ⟨text, ⟨first, u, _, rfl, creates, second, u', rest, ?_, table, spelled⟩, gapless, rfl⟩
    rw [List.append_nil]
  · rintro ⟨text, ⟨first, u, _, rfl, creates, second, u', rest, rfl, table, spelled⟩, gapless, rfl⟩
    have spelled' : gaplessText rest text := gaplessText_iff.2 ⟨spelled, gapless⟩
    exact ⟨first, u, _, rfl, creates, second, u', rest, rfl, table, rest, text, [],
      by rw [List.append_nil], spelled', rfl, rfl⟩

/-- The same with semicolons around it. -/
theorem query_tableStatement_iff {items : List Numbered} {statement : Statement} :
    query tableStatement items statement ↔ ∃ text, input tableCreation items text ∧ text.Gapless ∧
      statement = .createTable text.definition := by
  rw [Parser.query_iff]
  constructor
  · rintro ⟨front, middle, rest, units, units', rfl, before, spelled, behind⟩
    obtain ⟨text, creates, gapless, rfl⟩ := tableStatement_iff.1 spelled
    exact ⟨text, Parser.input_iff.2 ⟨front, middle, rest, units, units', rfl, before, creates, behind⟩,
      gapless, rfl⟩
  · rintro ⟨text, spelled, gapless, rfl⟩
    obtain ⟨front, middle, rest, units, units', rfl, before, creates, behind⟩ :=
      Parser.input_iff.1 spelled
    exact ⟨front, middle, rest, units, units', rfl, before,
      tableStatement_iff.2 ⟨text, creates, gapless, rfl⟩, behind⟩

end Language

namespace Parser

theorem accepts_table_iff (tokens : List Token) (statement : Statement) :
    (∃ parsed, (ofTokens tokens).outcome.isSuccess = true ∧
      (ofTokens tokens).outcome.statement = some parsed ∧ parsed.statement = statement ∧
        statement.isTableCreation = true) ↔
      ∃ text, Language.input Language.tableCreation (Language.sentence tokens) text ∧
        text.Gapless ∧ statement = .createTable text.definition := by
  rw [← Language.query_tableStatement_iff]
  refine accepts_kind_iff gives_tableStatement (fun _ _ spelled => .inr (.inr (.inr spelled))) ?_
    tokens statement
  rintro items statement (spelled | spelled | spelled | spelled) creates
  · have changes := gives_modificationStatement _ _ spelled
    cases statement <;> simp_all [Statement.isModification, Statement.isTableCreation]
  · have selects := gives_selectStatement _ _ spelled
    cases statement <;> simp_all [Statement.isSelection, Statement.isTableCreation]
  · have command := gives_administrativeStatement _ _ spelled
    cases statement <;> simp_all [Statement.isCommand, Statement.isTableCreation]
  · exact spelled

/-- A list of tokens is accepted as CREATE TABLE if and only if the tokens in front of its end of input
are one of the grammar, with any semicolons around it, in which no item is missing but perhaps the
last. -/
theorem accepts_createTable_iff (tokens : List Token) :
    (∃ parsed definition, (ofTokens tokens).outcome.isSuccess = true ∧
      (ofTokens tokens).outcome.statement = some parsed ∧
        parsed.statement = .createTable definition) ↔
      ∃ text, Language.input Language.tableCreation (Language.sentence tokens) text ∧
        text.Gapless := by
  constructor
  · rintro ⟨parsed, definition, success, found, creates⟩
    obtain ⟨text, spelled, gapless, -⟩ :=
      (accepts_table_iff tokens (.createTable definition)).1 ⟨parsed, success, found, creates, rfl⟩
    exact ⟨text, spelled, gapless⟩
  · rintro ⟨text, spelled, gapless⟩
    obtain ⟨parsed, success, found, creates, -⟩ :=
      (accepts_table_iff tokens (.createTable text.definition)).2 ⟨text, spelled, gapless, rfl⟩
    exact ⟨parsed, text.definition, success, found, creates⟩

/-- `CREATE TABLE t (a int,, b int)`. -/
def tableWithGap : List Token :=
  [⟨⟨.keyword .CREATE, "CREATE"⟩, ⟨0, 6⟩⟩, ⟨⟨.keyword .TABLE, "TABLE"⟩, ⟨7, 12⟩⟩,
   ⟨⟨.identifier "t", "t"⟩, ⟨13, 14⟩⟩, ⟨⟨.punctuation .leftParen, "("⟩, ⟨15, 16⟩⟩,
   ⟨⟨.identifier "a", "a"⟩, ⟨16, 17⟩⟩, ⟨⟨.keyword .INT, "int"⟩, ⟨18, 21⟩⟩,
   ⟨⟨.punctuation .comma, ","⟩, ⟨21, 22⟩⟩, ⟨⟨.punctuation .comma, ","⟩, ⟨22, 23⟩⟩,
   ⟨⟨.identifier "b", "b"⟩, ⟨24, 25⟩⟩, ⟨⟨.keyword .INT, "int"⟩, ⟨26, 29⟩⟩,
   ⟨⟨.punctuation .rightParen, ")"⟩, ⟨29, 30⟩⟩]

/-- Not every CREATE TABLE of the grammar is accepted: here an item is missing between two commas. -/
theorem not_accepts_tableWithGap : ¬ ∀ tokens : List Token,
    (∀ token ∈ tokens.dropLast, token.kind ≠ .endOfInput) →
    ((∃ parsed definition, (ofTokens tokens).outcome.isSuccess = true ∧
      (ofTokens tokens).outcome.statement = some parsed ∧
        parsed.statement = .createTable definition) ↔
      ∃ text, Language.input Language.tableCreation (Language.sentence tokens) text) := by
  intro claimed
  have column : ∀ name, Language.columnDefinition
      [⟨⟨.identifier name, name⟩, 0⟩, ⟨⟨.keyword .INT, "int"⟩, 0⟩]
      (.column (.unquoted name) (.native .int) false) := by
    intro name
    have int : Language.dataType [⟨⟨.keyword .INT, "int"⟩, 0⟩] (.native .int) := by
      show Language.typeWithin (99 + 1) _ _
      exact .inr (.inr (.inr ⟨_, rfl, rfl⟩))
    refine token_bind_iff.2 ⟨_, _, _, rfl, rfl, ?_⟩
    exact ⟨_, _, [], rfl, int, [], false, [], rfl, .inr ⟨rfl, rfl⟩, rfl, rfl⟩
  -- The text has a column, nothing, and another column.
  have slots : ∃ slots, Language.tableSlots
      [⟨⟨.identifier "a", "a"⟩, 0⟩, ⟨⟨.keyword .INT, "int"⟩, 0⟩, ⟨⟨.punctuation .comma, ","⟩, 0⟩,
        ⟨⟨.punctuation .comma, ","⟩, 0⟩, ⟨⟨.identifier "b", "b"⟩, 0⟩, ⟨⟨.keyword .INT, "int"⟩, 0⟩]
      slots := by
    have nothing : (do mark .comma; (some <$> Language.tableItem) <|> pure none)
        [⟨⟨.punctuation .comma, ","⟩, 0⟩] none :=
      ofKind_bind_iff.2 ⟨_, [], rfl, rfl, .inr ⟨rfl, rfl⟩⟩
    have last : (do mark .comma; (some <$> Language.tableItem) <|> pure none)
        [⟨⟨.punctuation .comma, ","⟩, 0⟩, ⟨⟨.identifier "b", "b"⟩, 0⟩, ⟨⟨.keyword .INT, "int"⟩, 0⟩]
        (some _) :=
      ofKind_bind_iff.2 ⟨_, _, rfl, rfl, .inl (map_iff.2 ⟨_, .inr (column "b"), rfl⟩)⟩
    exact ⟨_, _, _, _, rfl, .inr (column "a"), _, _, [], rfl, .more nothing (.more last .none), rfl,
      rfl⟩
  have text : ∃ text,
      Language.input Language.tableCreation (Language.sentence tableWithGap) text := by
    obtain ⟨slots, spelled⟩ := slots
    refine ⟨⟨⟨none, .unquoted "t"⟩, slots, []⟩,
      input_iff.2 ⟨[], Language.sentence tableWithGap, [], [], [], by simp, .none, ?_, .none⟩⟩
    refine ofKind_bind_iff.2 ⟨_, _, rfl, rfl, ?_⟩
    refine ⟨[_], (), _, rfl, .inl (ofKind_iff.2 ⟨_, rfl, rfl⟩), ?_⟩
    refine ⟨[_], _, _, rfl, .inr ⟨[_], _, [], rfl, ⟨_, rfl, rfl⟩, rfl, rfl⟩, ?_⟩
    refine ofKind_bind_iff.2 ⟨_, _, rfl, rfl, ?_⟩
    refine ⟨_, slots, [⟨⟨.punctuation .rightParen, ")"⟩, 0⟩], rfl, spelled, ?_⟩
    refine ofKind_bind_iff.2 ⟨_, [], rfl, rfl, ?_⟩
    exact ⟨[], [], [], rfl, .inr ⟨rfl, rfl⟩, rfl, rfl⟩
  have oneEnd : ∀ token ∈ tableWithGap.dropLast, token.kind ≠ .endOfInput := by decide
  obtain ⟨parsed, definition, success, -⟩ := (claimed tableWithGap oneEnd).2 text
  have rejected : (ofTokens tableWithGap).outcome.isSuccess = false := by decide +kernel
  rw [rejected] at success
  exact absurd success (by simp)

end Parser

/-! ### The table of a text -/

namespace Language.TableText

/-- The columns that are ordered, with their directions, as the text has them. -/
def orderings (text : TableText) : List (Identifier × Direction) :=
  text.options.flatMap TableOption.orderings

/-- The properties that are set, with their values, as the text has them. -/
def settings (text : TableText) : List (String × PropertyValue) :=
  text.options.filterMap TableOption.property?

/-- The table agrees with the text: it has the columns and the keys of the items and what the options
set, in the order of the text, and nothing else.  An ordered column stands where it is named first and
has the direction that it is given last; a property has the value that it is given last. -/
structure Describes (text : TableText) (definition : TableDefinition) : Prop where
  table : definition.table = text.table
  columns : definition.columns = text.items.filterMap TableItem.column?
  keyComponents : definition.keyComponents = text.items.filterMap TableItem.keyComponent?
  clusteringColumns :
    definition.clusteringColumns = text.items.flatMap TableItem.clusteringColumns
  compactStorage : definition.compactStorage = true ↔ .compactStorage ∈ text.options
  clusteringOrder : definition.clusteringOrder = .ofList text.orderings
  orderedColumns : definition.clusteringOrder.columns = (text.orderings.map (·.1)).eraseDups
  directions : ∀ column, definition.clusteringOrder.get? column =
    (text.orderings.filter (·.1 == column)).getLast?.map (·.2)
  propertyNames : (definition.properties.toList.map (·.1)).Pairwise (· < ·)
  propertyValues : ∀ name value, (name, value) ∈ definition.properties.toList ↔
    (text.settings.filter (Lowercase.text ·.1 = name)).getLast?.map (·.2) = some value

theorem describes_definition (text : TableText) : text.Describes text.definition where
  table := rfl
  columns := rfl
  keyComponents := rfl
  clusteringColumns := rfl
  compactStorage := by
    show text.options.any TableOption.isCompactStorage = true ↔ _
    rw [List.any_eq_true]
    constructor
    · rintro ⟨option, mem, compact⟩
      cases option with
      | compactStorage => exact mem
      | clusteringOrder | property => exact absurd compact (by simp [TableOption.isCompactStorage])
    · exact fun mem => ⟨_, mem, rfl⟩
  clusteringOrder := rfl
  orderedColumns := ColumnOrder.columns_ofList text.orderings
  directions := ColumnOrder.get?_ofList text.orderings
  propertyNames := Properties.names_ofList text.settings
  propertyValues := Properties.mem_toList_ofList text.settings

end Language.TableText

namespace Parser

/-- What is accepted as CREATE TABLE defines the table that its text describes, however the text is
read. -/
theorem definition_of_createTable (tokens : List Token) (parsed : ParsedStatement)
    (definition : TableDefinition) (success : (ofTokens tokens).outcome.isSuccess = true)
    (found : (ofTokens tokens).outcome.statement = some parsed)
    (creates : parsed.statement = .createTable definition) :
    (∃ text, Language.input Language.tableCreation (Language.sentence tokens) text ∧
      text.Gapless) ∧
    ∀ text, Language.input Language.tableCreation (Language.sentence tokens) text → text.Gapless →
      text.Describes definition := by
  constructor
  · obtain ⟨text, spelled, gapless, -⟩ :=
      (accepts_table_iff tokens (.createTable definition)).1 ⟨parsed, success, found, creates, rfl⟩
    exact ⟨text, spelled, gapless⟩
  · intro text spelled gapless
    obtain ⟨parsed', -, found', creates', -⟩ :=
      (accepts_table_iff tokens (.createTable text.definition)).2 ⟨text, spelled, gapless, rfl⟩
    -- The parser has one outcome, so the text has one table.
    obtain rfl : parsed = parsed' := Option.some.inj (found.symm.trans found')
    obtain rfl : definition = text.definition :=
      Statement.createTable.inj (creates.symm.trans creates')
    exact text.describes_definition

/-- `CREATE TABLE t (a int, b int, PRIMARY KEY (a, b)) WITH CLUSTERING ORDER BY (b DESC)`. -/
def orderedTable : List Token :=
  [⟨⟨.keyword .CREATE, "CREATE"⟩, ⟨0, 6⟩⟩, ⟨⟨.keyword .TABLE, "TABLE"⟩, ⟨7, 12⟩⟩,
   ⟨⟨.identifier "t", "t"⟩, ⟨13, 14⟩⟩, ⟨⟨.punctuation .leftParen, "("⟩, ⟨15, 16⟩⟩,
   ⟨⟨.identifier "a", "a"⟩, ⟨16, 17⟩⟩, ⟨⟨.keyword .INT, "int"⟩, ⟨18, 21⟩⟩,
   ⟨⟨.punctuation .comma, ","⟩, ⟨21, 22⟩⟩, ⟨⟨.identifier "b", "b"⟩, ⟨23, 24⟩⟩,
   ⟨⟨.keyword .INT, "int"⟩, ⟨25, 28⟩⟩, ⟨⟨.punctuation .comma, ","⟩, ⟨28, 29⟩⟩,
   ⟨⟨.keyword .PRIMARY, "PRIMARY"⟩, ⟨30, 37⟩⟩, ⟨⟨.keyword .KEY, "KEY"⟩, ⟨38, 41⟩⟩,
   ⟨⟨.punctuation .leftParen, "("⟩, ⟨42, 43⟩⟩, ⟨⟨.identifier "a", "a"⟩, ⟨43, 44⟩⟩,
   ⟨⟨.punctuation .comma, ","⟩, ⟨44, 45⟩⟩, ⟨⟨.identifier "b", "b"⟩, ⟨46, 47⟩⟩,
   ⟨⟨.punctuation .rightParen, ")"⟩, ⟨47, 48⟩⟩, ⟨⟨.punctuation .rightParen, ")"⟩, ⟨48, 49⟩⟩,
   ⟨⟨.keyword .WITH, "WITH"⟩, ⟨50, 54⟩⟩, ⟨⟨.keyword .CLUSTERING, "CLUSTERING"⟩, ⟨55, 65⟩⟩,
   ⟨⟨.keyword .ORDER, "ORDER"⟩, ⟨66, 71⟩⟩, ⟨⟨.keyword .BY, "BY"⟩, ⟨72, 74⟩⟩,
   ⟨⟨.punctuation .leftParen, "("⟩, ⟨75, 76⟩⟩, ⟨⟨.identifier "b", "b"⟩, ⟨76, 77⟩⟩,
   ⟨⟨.keyword .DESC, "DESC"⟩, ⟨78, 82⟩⟩, ⟨⟨.punctuation .rightParen, ")"⟩, ⟨82, 83⟩⟩]

theorem definition_of_orderedTable : ∃ parsed definition, ∃ text : Language.TableText,
    (ofTokens orderedTable).outcome.isSuccess = true ∧
      (ofTokens orderedTable).outcome.statement = some parsed ∧
      parsed.statement = .createTable definition ∧
      definition.keyComponents = [[.unquoted "a"]] ∧ definition.clusteringColumns = [.unquoted "b"] ∧
      text.Describes definition := by
  obtain ⟨⟨text, spelled, gapless⟩, describes⟩ :=
    definition_of_createTable orderedTable _ _ rfl rfl rfl
  exact ⟨_, _, text, rfl, rfl, rfl, rfl, rfl, describes text spelled gapless⟩

end Parser

end Cql
