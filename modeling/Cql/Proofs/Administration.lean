/-
The grammar of statements about schemas, permissions and whole tables.

CREATE TABLE says many things about its table, in any order and number.  Its text is kept as it is
written, so that it can be said what becomes of each part.

* `Language.dataType`, `Language.properties` — what several statements share;
* `Language.constantText_iff`, `Language.propertyMap_iff`, `Language.properties_iff` — what properties
  denote, without the functions that put it together;
* `Language.TableText` — what a CREATE TABLE says; `Language.TableText.definition` is the table that it
  describes;
* `Language.tableCreation` — CREATE TABLE with its keywords;
* `Language.administrativeStatement` — the other statements with theirs.
-/
import Cql.Proofs.Language
import Cql.Syntax.Statement

namespace Cql.Language

open Phrase

/-! ### Types -/

/-- A native type, or the name of a class as a string. -/
def simpleType : Phrase DataType := token fun item =>
  match item.kind with
  | .keyword name => (NativeType.ofKeyword? name).map .native
  | .string name => some (.custom name)
  | _ => none

/-- A map type, `MAP '<' key ',' value '>'`. -/
def mapType (element : Phrase DataType) : Phrase DataType := do
  word .MAP
  mark .less
  let key ← element
  mark .comma
  let value ← element
  mark .greater
  return .map key value

/-- A type in angle brackets. -/
def inAngles (element : Phrase DataType) : Phrase DataType := do
  mark .less
  let inner ← element
  mark .greater
  return inner

/-- One of a simple type, `MAP '<' type ',' type '>'`, `LIST '<' type '>'` and `SET '<' type '>'`. -/
def typeOf (element : Phrase DataType) : Phrase DataType :=
  mapType element <|>
  (do
    word .LIST
    return .list (← inAngles element)) <|>
  (do
    word .SET
    return .set (← inAngles element)) <|>
  simpleType

/-- A type in which at most `levels` collection types stand inside one another. -/
def typeWithin : Nat → Phrase DataType
  | 0 => simpleType
  | levels + 1 => typeOf (typeWithin levels)

def dataType : Phrase DataType := typeWithin maxNesting

/-! ### Properties -/

/-- A constant; it stands for its text. -/
def constantText : Phrase String := token fun item => (Term.ofKind? item.kind).bind Term.rawText?

/-- The text of a constant: that of a truth value is in lower case. -/
inductive HasText : TokenKind → String → Prop
  | string (text : String) : HasText (.string text) text
  | integer (digits : String) : HasText (.integer digits) digits
  | float (digits : String) : HasText (.float digits) digits
  | uuid (digits : String) : HasText (.uuid digits) digits
  | hex (digits : String) : HasText (.hex digits) digits
  | yes : HasText (.keyword .TRUE) "true"
  | no : HasText (.keyword .FALSE) "false"

theorem constantText_iff {items : List Numbered} {text : String} :
    constantText items text ↔ ∃ item, items = [item] ∧ HasText item.kind text := by
  have texts : ∀ kind, (Term.ofKind? kind).bind Term.rawText? = some text ↔ HasText kind text := by
    intro kind
    constructor
    · intro known
      obtain ⟨term, isConstant, raw⟩ := Option.bind_eq_some_iff.1 known
      cases isConstant_iff.2 isConstant <;> cases raw
      · exact .string _
      · exact .integer _
      · exact .float _
      · exact .uuid _
      · exact .hex _
      · exact .yes
      · exact .no
    · intro has
      cases has <;> rfl
  simp only [constantText, token, texts]

/-- An unreserved keyword as it is written. -/
def unreservedWord : Phrase String := token fun item =>
  if item.kind.isUnreservedKeyword then some item.lexeme.text else none

/-- An entry of a property map, `constant ':' constant`. -/
def propertyEntry : Phrase (String × String) := do
  let key ← constantText
  mark .colon
  return (key, ← constantText)

/-- A property map, `'{' (entry (',' entry)*)? '}'`; of two entries with one key, the later counts. -/
def propertyMap : Phrase PropertyValue := do
  mark .leftBrace
  let entries ← commaSeparated propertyEntry <|> pure []
  mark .rightBrace
  return .map (.ofList entries)

/-- A property map has ascending keys, each with the text that it is given last. -/
theorem propertyMap_iff {items : List Numbered} {value : PropertyValue} :
    propertyMap items value ↔ ∃ entries map, (do
        mark .leftBrace
        let entries ← commaSeparated propertyEntry <|> pure []
        mark .rightBrace
        return entries : Phrase (List (String × String))) items entries ∧ value = .map map ∧
      (map.entries.map (·.1)).Pairwise (· < ·) ∧
      ∀ key text, (key, text) ∈ map.entries ↔
        (entries.filter (·.1 = key)).getLast?.map (·.2) = some text := by
  have shape : propertyMap = (fun entries => PropertyValue.map (.ofList entries)) <$> (do
      mark .leftBrace
      let entries ← commaSeparated propertyEntry <|> pure []
      mark .rightBrace
      return entries) := by
    simp only [propertyMap, map_bind, map_pure]
  rw [shape, map_iff]
  refine exists_congr fun entries => ?_
  constructor
  · rintro ⟨spelled, rfl⟩
    exact ⟨_, spelled, rfl, TextMap.eq_ofList_iff.1 rfl⟩
  · rintro ⟨map, spelled, rfl, described⟩
    exact ⟨spelled, congrArg _ (TextMap.eq_ofList_iff.2 described)⟩

/-- A constant, an unreserved keyword or a map of constants. -/
def propertyValue : Phrase PropertyValue :=
  (.text <$> constantText) <|> (.text <$> unreservedWord) <|> propertyMap

/-- A property, `name '=' value`. -/
def property : Phrase (String × PropertyValue) := do
  let name ← identifier
  mark .equal
  return (name.text, ← propertyValue)

/-- A list of properties, `property (AND property)*`; of two with one name, the later counts. -/
def properties : Phrase Properties := do
  return .ofList (← separated (word .AND) property)

/-- A list of properties has ascending names in lower case, each with the value that it is given last. -/
theorem properties_iff {items : List Numbered} {bag : Properties} :
    properties items bag ↔ ∃ settings, separated (word .AND) property items settings ∧
      (bag.toList.map (·.1)).Pairwise (· < ·) ∧
      ∀ name value, (name, value) ∈ bag.toList ↔
        (settings.filter (Lowercase.text ·.1 = name)).getLast?.map (·.2) = some value := by
  have shape : properties = Properties.ofList <$> separated (word .AND) property := by
    simp only [properties, map_eq_pure_bind]
  rw [shape, map_iff]
  exact exists_congr fun settings => and_congr_right fun _ => Properties.eq_ofList_iff

/-! ### CREATE TABLE -/

/-- What can stand between the parentheses of a CREATE TABLE. -/
inductive TableItem
  /-- A column with its type, `name type` or `name type PRIMARY KEY`. -/
  | column (name : Identifier) (type : DataType) (isKey : Bool)
  /-- A key, `PRIMARY KEY '(' component (',' column)* ')'`. -/
  | key (component : List Identifier) (clustering : List Identifier)

/-- What can stand after WITH in a CREATE TABLE. -/
inductive TableOption
  | compactStorage
  | clusteringOrder (entries : List (Identifier × Direction))
  | property (name : String) (value : PropertyValue)

/-- What a CREATE TABLE says, as it is written: after a comma there may be no item. -/
structure TableText where
  table : TableName
  slots : List (Option TableItem)
  options : List TableOption

/-- A component of a key, `'(' columns ')' | column`. -/
def keyComponent : Phrase (List Identifier) :=
  parenthesized identifier <|> (do return [← identifier])

/-- A key, `PRIMARY KEY '(' component (',' column)* ')'`. -/
def primaryKey : Phrase TableItem := do
  word .PRIMARY
  word .KEY
  mark .leftParen
  let component ← keyComponent
  let clustering ← many do mark .comma; identifier
  mark .rightParen
  return .key component clustering

/-- An optional `PRIMARY KEY`. -/
def keyMark : Phrase Bool :=
  (do
    word .PRIMARY
    word .KEY
    return true) <|>
  pure false

/-- A column and its type, `column type (PRIMARY KEY)?`. -/
def columnDefinition : Phrase TableItem := do
  let name ← identifier
  let type ← dataType
  return .column name type (← keyMark)

def tableItem : Phrase TableItem := primaryKey <|> columnDefinition

/-- Items, `item (',' item?)*`. -/
def tableSlots : Phrase (List (Option TableItem)) := do
  let first ← tableItem
  let rest ← many do
    mark .comma
    (some <$> tableItem) <|> pure none
  return some first :: rest

/-- A column and its direction, `column (ASC | DESC)`. -/
def clusteringEntry : Phrase (Identifier × Direction) := do
  let column ← identifier
  (do
    word .ASC
    return (column, .ascending)) <|>
  (do
    word .DESC
    return (column, .descending))

/-- One of `COMPACT STORAGE`, `CLUSTERING ORDER BY '(' entry (',' entry)* ')'` and a property. -/
def tableOption : Phrase TableOption :=
  (do
    word .COMPACT
    word .STORAGE
    return .compactStorage) <|>
  (do
    word .CLUSTERING
    word .ORDER
    word .BY
    return .clusteringOrder (← parenthesized clusteringEntry)) <|>
  (do
    let (name, value) ← property
    return .property name value)

/-- An optional `WITH option (AND option)*`. -/
def tableOptions : Phrase (List TableOption) :=
  (do
    word .WITH
    separated (word .AND) tableOption) <|>
  pure []

/-- The rest of CREATE TABLE: `table '(' items ')' (WITH options)?`. -/
def tableText : Phrase TableText := do
  let table ← tableName
  mark .leftParen
  let slots ← tableSlots
  mark .rightParen
  let options ← tableOptions
  return { table, slots, options }

/-- Either word for a table. -/
def tableWord : Phrase Unit := word .TABLE <|> word .COLUMNFAMILY

/-- CREATE TABLE with its keywords. -/
def tableCreation : Phrase TableText := do
  word .CREATE
  tableWord
  tableText

/-! ### What a CREATE TABLE describes -/

namespace TableItem

/-- The column that an item defines. -/
def column? : TableItem → Option (Identifier × DataType)
  | column name type _ => some (name, type)
  | key _ _ => none

/-- The component that an item adds to the partition key. -/
def keyComponent? : TableItem → Option (List Identifier)
  | column name _ true => some [name]
  | column _ _ false => none
  | key component _ => some component

/-- The clustering columns that an item adds. -/
def clusteringColumns : TableItem → List Identifier
  | column _ _ _ => []
  | key _ clustering => clustering

end TableItem

namespace TableOption

def isCompactStorage : TableOption → Bool
  | compactStorage => true
  | _ => false

def orderings : TableOption → List (Identifier × Direction)
  | clusteringOrder entries => entries
  | _ => []

def property? : TableOption → Option (String × PropertyValue)
  | property name value => some (name, value)
  | _ => none

end TableOption

namespace TableText

/-- The items that are not missing. -/
def items (text : TableText) : List TableItem := text.slots.filterMap id

/-- Is no item missing, except in front of the closing parenthesis? -/
def Gapless (text : TableText) : Prop := ∀ slot ∈ text.slots.dropLast, slot.isSome

instance (text : TableText) : Decidable text.Gapless := inferInstanceAs (Decidable (∀ _ ∈ _, _))

/-- The table that is described. -/
def definition (text : TableText) : TableDefinition where
  table := text.table
  columns := text.items.filterMap TableItem.column?
  keyComponents := text.items.filterMap TableItem.keyComponent?
  clusteringColumns := text.items.flatMap TableItem.clusteringColumns
  properties := .ofList (text.options.filterMap TableOption.property?)
  compactStorage := text.options.any TableOption.isCompactStorage
  clusteringOrder := .ofList (text.options.flatMap TableOption.orderings)

end TableText

/-! ### The other statements -/

/-- A keyspace and what is set for it, `keyspace WITH properties`. -/
def keyspaceDefinition : Phrase KeyspaceDefinition := do
  let keyspace ← identifier
  word .WITH
  return ⟨keyspace, ← properties⟩

/-- The name of an index, as it is written. -/
def indexName : Phrase String := token fun item =>
  match item.kind with
  | .identifier _ => some item.lexeme.text
  | _ => none

/-- The rest of CREATE INDEX: `name? ON table '(' column ')'`. -/
def indexDefinition : Phrase IndexDefinition := do
  let name ← (some <$> indexName) <|> pure none
  word .ON
  let table ← tableName
  mark .leftParen
  let column ← identifier
  mark .rightParen
  return { name, table, column }

/-- The rest of CREATE, but for CREATE TABLE. -/
def creation : Phrase Statement :=
  (do
    word .KEYSPACE
    return .createKeyspace (← keyspaceDefinition)) <|>
  (do
    word .INDEX
    return .createIndex (← indexDefinition))

/-- The rest of DROP, one of `KEYSPACE keyspace`, `(TABLE | COLUMNFAMILY) table` and `INDEX name`. -/
def dropping : Phrase Statement :=
  (do
    word .KEYSPACE
    return .dropKeyspace (← identifier)) <|>
  (do
    tableWord
    return .dropTable (← tableName)) <|>
  (do
    word .INDEX
    return .dropIndex (← indexName))

/-- A renamed column, `column TO column`. -/
def columnRenaming : Phrase (Identifier × Identifier) := do
  let before ← identifier
  word .TO
  return (before, ← identifier)

/-- The change of an ALTER TABLE, one of
```text
ALTER column TYPE type
ADD column type
DROP column
WITH property (AND property)*
RENAME column TO column (AND column TO column)*
``` -/
def tableChange : Phrase TableChange :=
  (do
    word .ALTER
    let column ← identifier
    word .TYPE
    return .retype column (← dataType)) <|>
  (do
    word .ADD
    let column ← identifier
    return .add column (← dataType)) <|>
  (do
    word .DROP
    return .drop (← identifier)) <|>
  (do
    word .WITH
    return .setProperties (← properties)) <|>
  (do
    word .RENAME
    return .rename (← separated (word .AND) columnRenaming))

/-- The rest of ALTER, one of `KEYSPACE keyspace WITH properties` and
`(TABLE | COLUMNFAMILY) table change`. -/
def alteration : Phrase Statement :=
  (do
    word .KEYSPACE
    return .alterKeyspace (← keyspaceDefinition)) <|>
  (do
    tableWord
    let table ← tableName
    return .alterTable ⟨table, ← tableChange⟩)

def permission : Phrase Permission := token fun item =>
  match item.kind with
  | .keyword name => Permission.ofKeyword? name
  | _ => none

/-- A user: an identifier or a string. -/
def userName : Phrase String := token fun item =>
  match item.kind with
  | .identifier name | .string name => some name
  | _ => none

/-- An optional `WITH GRANT OPTION`. -/
def grantOption : Phrase Bool :=
  (do
    word .WITH
    word .GRANT
    word .OPTION
    return true) <|>
  pure false

/-- The rest of GRANT: `permission ON table TO user (WITH GRANT OPTION)?`. -/
def grant : Phrase Grant := do
  let permission ← permission
  word .ON
  let resource ← tableName
  word .TO
  let user ← userName
  return { permission, resource, user, withGrantOption := ← grantOption }

/-- The rest of REVOKE: `permission ON table FROM user`. -/
def revocation : Phrase Revocation := do
  let permission ← permission
  word .ON
  let resource ← tableName
  word .FROM
  return { permission, resource, user := ← userName }

/-- The rest of LIST: `GRANTS FOR user`. -/
def grantsOfUser : Phrase String := do
  word .GRANTS
  word .FOR
  userName

/-- A statement about schemas, permissions or whole tables with its keywords, but for CREATE TABLE. -/
def administrativeStatement : Phrase Statement :=
  (do
    word .USE
    return .use (← identifier)) <|>
  (do
    word .TRUNCATE
    return .truncate (← tableName)) <|>
  (do
    word .CREATE
    creation) <|>
  (do
    word .DROP
    dropping) <|>
  (do
    word .ALTER
    alteration) <|>
  (do
    word .GRANT
    return .grant (← grant)) <|>
  (do
    word .REVOKE
    return .revoke (← revocation)) <|>
  (do
    word .LIST
    return .listGrants (← grantsOfUser))

/-- Whatever stands between any number of semicolons, `';'* phrase ';'*`. -/
def input {α : Type} (phrase : Phrase α) : Phrase α := do
  let _ ← many (mark .semicolon)
  let a ← phrase
  let _ ← many (mark .semicolon)
  return a

end Cql.Language
