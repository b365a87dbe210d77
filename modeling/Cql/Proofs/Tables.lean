/-
CREATE TABLE is read as the grammar has it, but for missing items.

The grammar allows an item to be missing after every comma.  The rule allows it only in front of the
closing parenthesis, and elsewhere reports that a column was required.  What it reads are therefore the
texts without gaps (`TableText.Gapless`).

* `Language.TableText.ofElements_elements` — the table that a text describes, element by element;
* `Language.gaplessText_iff` — the grammar of texts without gaps;
* `Grammar.recognizes_tableDefinition` — the rest of the statement.
-/
import Cql.Grammar.Table
import Cql.Proofs.Properties
import Cql.Proofs.Salvaging
import Cql.Proofs.Selections

namespace Cql

/-! ### What a text says, element by element -/

namespace Language

open Phrase

/-- What an item says about its table. -/
def TableItem.elements : TableItem → List TableElement
  | column name type true => [.keyComponent [name], .column name type]
  | column name type false => [.column name type]
  | key component clustering => .keyComponent component :: clustering.map .clusteringColumn

/-- What an option says about its table. -/
def TableOption.elements : TableOption → List TableElement
  | compactStorage => [.compactStorage]
  | clusteringOrder entries => entries.map fun entry => .ordering entry.1 entry.2
  | property name value => [.property name value]

/-- What is said where an item can stand: nothing if it is missing. -/
def slotElements (slot : Option TableItem) : List TableElement :=
  slot.elim [] TableItem.elements

namespace TableText

/-- What a text says about its table, in the order in which it says it. -/
def elements (text : TableText) : List TableElement :=
  text.slots.flatMap slotElements ++ text.options.flatMap TableOption.elements

theorem flatMap_slotElements (slots : List (Option TableItem)) :
    slots.flatMap slotElements = (slots.filterMap id).flatMap TableItem.elements := by
  induction slots with
  | nil => rfl
  | cons slot slots ih =>
    rw [List.flatMap_cons, ih]
    cases slot with
    | none => rfl
    | some item => rfl

theorem foldl_clusteringColumn (names : List Identifier) (definition : TableDefinition) :
    (names.map TableElement.clusteringColumn).foldl TableDefinition.add definition =
      { definition with clusteringColumns := definition.clusteringColumns ++ names } := by
  induction names generalizing definition with
  | nil => simp
  | cons name names ih =>
    rw [List.map_cons, List.foldl_cons, ih]
    simp [TableDefinition.add]

theorem foldl_ordering (entries : List (Identifier × Direction)) (definition : TableDefinition) :
    (entries.map fun entry => TableElement.ordering entry.1 entry.2).foldl TableDefinition.add
        definition =
      { definition with
        clusteringOrder := entries.foldl (fun order entry => order.insert entry.1 entry.2)
          definition.clusteringOrder } := by
  induction entries generalizing definition with
  | nil => rfl
  | cons entry entries ih =>
    rw [List.map_cons, List.foldl_cons, ih]
    rfl

/-- Items only define columns and keys. -/
theorem foldl_items (items : List TableItem) (definition : TableDefinition) :
    (items.flatMap TableItem.elements).foldl TableDefinition.add definition =
      { definition with
        columns := definition.columns ++ items.filterMap TableItem.column?
        keyComponents := definition.keyComponents ++ items.filterMap TableItem.keyComponent?
        clusteringColumns :=
          definition.clusteringColumns ++ items.flatMap TableItem.clusteringColumns } := by
  induction items generalizing definition with
  | nil => simp
  | cons item items ih =>
    -- The first item is added to the table before the others, so its parts stand in front of theirs.
    rw [List.flatMap_cons, List.foldl_append, ih]
    cases item with
    | column name type isKey =>
      cases isKey with
      | true => simp [TableItem.elements, TableDefinition.add, TableItem.column?,
          TableItem.keyComponent?, TableItem.clusteringColumns]
      | false => simp [TableItem.elements, TableDefinition.add, TableItem.column?,
          TableItem.keyComponent?, TableItem.clusteringColumns, List.filterMap_cons]
    | key component clustering =>
      rw [TableItem.elements, List.foldl_cons, foldl_clusteringColumn]
      simp [TableDefinition.add, TableItem.column?, TableItem.keyComponent?,
        TableItem.clusteringColumns, List.filterMap_cons]

/-- Options only set properties, the storage and the order of rows. -/
theorem foldl_options (options : List TableOption) (definition : TableDefinition) :
    (options.flatMap TableOption.elements).foldl TableDefinition.add definition =
      { definition with
        properties := (options.filterMap TableOption.property?).foldl
          (fun properties entry => properties.insert entry.1 entry.2) definition.properties
        compactStorage := definition.compactStorage || options.any TableOption.isCompactStorage
        clusteringOrder := (options.flatMap TableOption.orderings).foldl
          (fun order entry => order.insert entry.1 entry.2) definition.clusteringOrder } := by
  induction options generalizing definition with
  | nil => simp
  | cons option options ih =>
    rw [List.flatMap_cons, List.foldl_append, ih]
    cases option with
    | compactStorage => simp [TableOption.elements, TableDefinition.add, TableOption.property?,
        TableOption.isCompactStorage, TableOption.orderings, List.filterMap_cons]
    | clusteringOrder entries =>
      rw [TableOption.elements, foldl_ordering]
      simp [TableOption.property?, TableOption.isCompactStorage, TableOption.orderings,
        List.filterMap_cons]
    | property name value => simp [TableOption.elements, TableDefinition.add,
        TableOption.property?, TableOption.isCompactStorage, TableOption.orderings]

/-- The table that a text describes is the one that its elements make. -/
theorem ofElements_elements (text : TableText) :
    .ofElements text.table text.elements = text.definition := by
  unfold TableDefinition.ofElements elements
  rw [flatMap_slotElements, List.foldl_append, foldl_items, foldl_options]
  simp [TableDefinition.bare, definition, items, Properties.ofList, ColumnOrder.ofList]

end TableText

/-! ### Texts without gaps -/

/-- Items of which none is missing, but perhaps in front of the closing parenthesis. -/
def gaplessSlots : Phrase (List (Option TableItem)) := do
  let first ← tableItem
  let rest ← manyThen (do mark .comma; some <$> tableItem) (trailing (mark .comma) none)
  return some first :: rest

theorem gaplessSlots_iff {items : List Numbered} {slots : List (Option TableItem)} :
    gaplessSlots items slots ↔ tableSlots items slots ∧ ∀ slot ∈ slots.dropLast, slot.isSome := by
  constructor
  · rintro ⟨front, first, _, rfl, spelled, middle, rest, _, rfl, listed, rfl, rfl⟩
    obtain ⟨listed', gapless⟩ := many_optional_iff.2 listed
    refine ⟨?_, isSome_dropLast_cons.2 gapless⟩
    exact ⟨front, first, _, rfl, spelled, middle, rest, [], rfl, listed', rfl, rfl⟩
  · rintro ⟨⟨front, first, _, rfl, spelled, middle, rest, _, rfl, listed, rfl, rfl⟩, gapless⟩
    have listed' := many_optional_iff.1 ⟨listed, isSome_dropLast_cons.1 gapless⟩
    exact ⟨front, first, _, rfl, spelled, middle, rest, [], rfl, listed', rfl, rfl⟩

/-- The rest of CREATE TABLE, where no item is missing but perhaps the last. -/
def gaplessText : Phrase TableText := do
  let table ← tableName
  mark .leftParen
  let slots ← gaplessSlots
  mark .rightParen
  let options ← tableOptions
  return { table, slots, options }

theorem gaplessText_iff {items : List Numbered} {text : TableText} :
    gaplessText items text ↔ tableText items text ∧ text.Gapless := by
  constructor
  · rintro ⟨named, table, _, rfl, h₁, opening, u, _, rfl, h₂, inside, slots, _, rfl, h₃, closing, u',
      _, rfl, h₄, behind, options, _, rfl, h₅, rfl, rfl⟩
    obtain ⟨h₃, gapless⟩ := gaplessSlots_iff.1 h₃
    exact ⟨⟨named, table, _, rfl, h₁, opening, u, _, rfl, h₂, inside, slots, _, rfl, h₃, closing, u',
      _, rfl, h₄, behind, options, [], rfl, h₅, rfl, rfl⟩, gapless⟩
  · rintro ⟨⟨named, table, _, rfl, h₁, opening, u, _, rfl, h₂, inside, slots, _, rfl, h₃, closing, u',
      _, rfl, h₄, behind, options, _, rfl, h₅, rfl, rfl⟩, gapless⟩
    have h₃' : gaplessSlots inside slots := gaplessSlots_iff.2 ⟨h₃, gapless⟩
    exact ⟨named, table, _, rfl, h₁, opening, u, _, rfl, h₂, inside, slots, _, rfl, h₃', closing, u',
      _, rfl, h₄, behind, options, [], rfl, h₅, rfl, rfl⟩

/-- CREATE TABLE with its keywords, where no item is missing but perhaps the last. -/
def tableStatement : Phrase Statement := do
  word .CREATE
  tableWord
  return .createTable (← gaplessText).definition

end Language

namespace Grammar

open Rule Phrase

/-! ### Items -/

theorem recognizes_keyComponent :
    keyComponent.Recognizes Language.keyComponent anything := by
  have one : (do return [← identifier "in PRIMARY KEY"] : Rule (List Identifier)).Recognizes
      (do return [← Language.identifier]) anything :=
    (recognizes_identifier _).andThen fun _ => .pure _
  have opens : (do return [← Language.identifier] : Phrase (List Identifier)).Opens anything
      (TokenKind.isNameLike · = true) := .andThen opens_identifier
  unfold Language.keyComponent parenthesized
  refine .ifEat (by decide) ?_ one (opens.avoids rfl)
  refine (recognizes_identifiers _).bind (fun columns => ?_) fun columns => .andThen (.ofKind ?_)
  · exact (Recognizes.symbol _ rfl).andThen fun _ => .pure columns
  · decide

/-- What follows PRIMARY in a key. -/
theorem recognizes_primaryKey :
    primaryKey.Recognizes (do
      word .KEY
      mark .leftParen
      let component ← Language.keyComponent
      let clustering ← many do mark .comma; Language.identifier
      mark .rightParen
      return Salvage.whole (Language.TableItem.key component clustering).elements) anything := by
  have columns : (closed (salvagedAfterComma (identifier "in PRIMARY KEY"))
      (symbol .rightParen "to close PRIMARY KEY")).Recognizes
      (Salvage.whole <$> do
        let clustering ← many do mark .comma; Language.identifier
        mark .rightParen
        return clustering) anything :=
    .closed (.salvagedAfterComma (recognizes_identifier _)) (.symbol _ rfl)
      (.ofKind (by decide))
  unfold primaryKey
  refine (Recognizes.keyword _ _).andThen fun _ => ?_
  refine (Recognizes.symbol _ rfl).andThen fun _ => ?_
  refine recognizes_keyComponent.andThen fun component => ?_
  refine (columns.andThen fun salvage => .pure _).congr (fun _ _ _ => Iff.rfl) fun items result => ?_
  simp only [bind_map_left, bind_assoc, pure_bind]
  rfl

theorem recognizes_columnDefinition :
    columnDefinition.Recognizes
      ((fun item => Salvage.whole item.elements) <$> Language.columnDefinition)
      (· ≠ .keyword .PRIMARY) := by
  have marked : ∀ (name : Identifier) (type : DataType), (do
      if ← eat .PRIMARY then
        keyword .KEY "after PRIMARY"
        return ⟨[.keyComponent [name], .column name type], true⟩
      else
        return ⟨[.column name type], true⟩ : Rule (Salvage TableElement)).Recognizes
      ((do
        word .PRIMARY
        word .KEY
        return Salvage.whole (Language.TableItem.column name type true).elements) <|>
      pure (Salvage.whole (Language.TableItem.column name type false).elements))
      (· ≠ .keyword .PRIMARY) := by
    intro name type
    have column : (pure (Salvage.whole (Language.TableItem.column name type true).elements) :
        Rule _).Recognizes (pure _) (· ≠ .keyword .PRIMARY) := .pure _
    have key := (Recognizes.keyword .KEY "after PRIMARY").andThen fun _ => column
    exact .clauseAfter key fun _ other => other
  simp only [Language.columnDefinition, Language.keyMark, map_bind, map_orElse, map_pure,
    orElse_bind, bind_assoc, pure_bind]
  exact (recognizes_identifier _).andThen fun name => recognizes_dataType.andThen fun type =>
    marked name type

theorem opens_columnDefinition :
    Language.columnDefinition.Opens anything (TokenKind.isNameLike · = true) :=
  .andThen opens_identifier

/-- An item inside the parentheses, as far as it can be read. -/
def keyOrColumn : Rule (Salvage TableElement) := do
  if ← eat .PRIMARY then primaryKey else columnDefinition

theorem recognizes_keyOrColumn :
    keyOrColumn.Recognizes (Salvage.whole <$> (Language.TableItem.elements <$> Language.tableItem))
      (· ≠ .keyword .PRIMARY) := by
  have shape : Salvage.whole <$> (Language.TableItem.elements <$> Language.tableItem) =
      ((do
        word .PRIMARY
        word .KEY
        mark .leftParen
        let component ← Language.keyComponent
        let clustering ← many do mark .comma; Language.identifier
        mark .rightParen
        return Salvage.whole (Language.TableItem.key component clustering).elements) <|>
      ((fun item => Salvage.whole item.elements) <$> Language.columnDefinition)) := by
    simp only [Language.tableItem, Language.primaryKey, map_orElse, map_bind, map_pure,
      Functor.map_map]
  rw [shape]
  refine .ifWord (recognizes_primaryKey.narrow fun _ _ => trivial)
    recognizes_columnDefinition ?_
  exact Opens.avoids opens_columnDefinition.map rfl

theorem recognizes_tableElement :
    tableElement.Recognizes (Language.TableItem.elements <$> Language.tableItem)
      (· ≠ .keyword .PRIMARY) :=
  .restoring recognizes_keyOrColumn

/-! ### Options -/

/-- Two words in a row decide between two rules. -/
def ifWords {α : Type} (first second : Keyword) (yes : Rule α) (no : TokenKind → TokenKind → Rule α) :
    Rule α := do
  let current ← Rule.kind
  let next ← nextKind
  if current = .keyword first && next = .keyword second then
    Rule.advance
    Rule.advance
    yes
  else
    no current next

theorem reads_words {α : Type} {first second : Keyword} {yes : Rule α} {state after : State} {a : α} :
    (do keyword first ""; keyword second ""; yes).Reads state a after ↔
      (state.kind = .keyword first ∧ (state.lexeme 1).kind = .keyword second) ∧
        yes.Reads state.advance.advance a after := by
  have next : state.kind = .keyword first → state.advance.kind = (state.lexeme 1).kind := by
    intro same
    exact State.kind_advance (by simp [same])
  constructor
  · intro reads
    obtain ⟨_, mid, current, reads⟩ := reads_bind.1 reads
    obtain ⟨_, mid', current', reads⟩ := reads_bind.1 reads
    obtain ⟨same, rfl⟩ := reads_ofKind.1 current
    obtain ⟨same', rfl⟩ := reads_ofKind.1 current'
    exact ⟨⟨same, (next same).symm.trans same'⟩, reads⟩
  · rintro ⟨⟨same, same'⟩, reads⟩
    refine reads_bind.2 ⟨(), _, reads_ofKind.2 ⟨same, rfl⟩, ?_⟩
    exact reads_bind.2 ⟨(), _, reads_ofKind.2 ⟨(next same).trans same', rfl⟩, reads⟩

theorem reads_ifWords {α : Type} {first second : Keyword} {yes : Rule α}
    {no : TokenKind → TokenKind → Rule α} {state after : State} {a : α} :
    (ifWords first second yes no).Reads state a after ↔
      (do keyword first ""; keyword second ""; yes).Reads state a after ∨
        ¬ (state.kind = .keyword first ∧ (state.lexeme 1).kind = .keyword second) ∧
          (do no (← Rule.kind) (← nextKind)).Reads state a after := by
  -- Looking at kinds takes no token, so both sides go on from the same state.
  rw [ifWords, reads_kind_bind, reads_nextKind_bind, reads_words, reads_kind_bind, reads_nextKind_bind]
  by_cases both : state.kind = .keyword first ∧ (state.lexeme 1).kind = .keyword second
  · rw [if_pos (by simpa using both), reads_advance_bind, reads_advance_bind]
    simp [both]
  · rw [if_neg (by simpa using both)]
    simp [both]

/-- The second rule must not begin with the two words. -/
theorem recognizes_ifWords {α : Type} {first second : Keyword} {yes : Rule α}
    {no : TokenKind → TokenKind → Rule α} {phrase other : Phrase α} {follow : TokenKind → Prop}
    (one : yes.Recognizes phrase follow)
    (two : (do no (← Rule.kind) (← nextKind)).Recognizes other follow)
    (apart : ∀ items a, other items a → ∃ item item' rest, items = item :: item' :: rest ∧
      (item.kind = .keyword first → item'.kind ≠ .keyword second)) :
    (ifWords first second yes no).Recognizes ((do word first; word second; phrase) <|> other)
      follow := by
  have words := (Recognizes.keyword first "").andThen fun _ => (Recognizes.keyword second "").andThen
    fun _ => one
  constructor
  · intro state a after reads
    rcases reads_ifWords.1 reads with reads | ⟨-, reads⟩
    · obtain ⟨items, passes, spelled⟩ := words.sound _ _ _ reads
      exact ⟨items, passes, .inl spelled⟩
    · obtain ⟨items, passes, spelled⟩ := two.sound _ _ _ reads
      exact ⟨items, passes, .inr spelled⟩
  · rintro state items a after passes (spelled | spelled) follows
    · exact reads_ifWords.2 (.inl (words.complete _ _ _ _ passes spelled follows))
    · obtain ⟨item, item', rest, rfl, other⟩ := apart items a spelled
      have notBoth : ¬ (state.kind = .keyword first ∧ (state.lexeme 1).kind = .keyword second) := by
        rw [passes.nextKind_eq]
        obtain ⟨-, rfl, -⟩ := State.Passes.cons_iff.1 passes
        exact fun both => other both.1 both.2
      exact reads_ifWords.2 (.inr ⟨notBoth, two.complete _ _ _ _ passes spelled follows⟩)

/-- The direction that a token names. -/
def direction? (lexeme : Lexeme) : Option Direction :=
  match lexeme.kind with
  | .keyword .ASC => some .ascending
  | .keyword .DESC => some .descending
  | _ => none

theorem direction?_eq_some {lexeme : Lexeme} {direction : Direction} :
    direction? lexeme = some direction ↔
      lexeme.kind = .keyword .ASC ∧ direction = .ascending ∨
      lexeme.kind = .keyword .DESC ∧ direction = .descending := by
  unfold direction?
  split
  · rename_i same
    simp [same, eq_comm]
  · rename_i same
    simp [same, eq_comm]
  · rename_i notAscending notDescending
    refine iff_of_false (by simp) ?_
    rintro (⟨same, -⟩ | ⟨same, -⟩)
    · exact notAscending same
    · exact notDescending same

theorem recognizes_clusteringEntry :
    clusteringEntry.Recognizes
      ((fun entry => TableElement.ordering entry.1 entry.2) <$> Language.clusteringEntry)
      anything := by
  have direction : ∀ column : Identifier,
      (accept direction? "ASC or DESC" ("after " ++ column.render)).Recognizes
      ((do
        word .ASC
        return Direction.ascending) <|>
      (do
        word .DESC
        return Direction.descending)) anything := by
    intro column
    refine (recognizes_accept (fun _ => rfl) fun _ => rfl).congr (fun _ _ _ => Iff.rfl)
      fun items direction => ?_
    constructor
    · rintro (spelled | spelled)
      · obtain ⟨item, _, rfl, same, rfl, rfl⟩ := ofKind_bind_iff.1 spelled
        exact ⟨item, rfl, direction?_eq_some.2 (.inl ⟨same, rfl⟩)⟩
      · obtain ⟨item, _, rfl, same, rfl, rfl⟩ := ofKind_bind_iff.1 spelled
        exact ⟨item, rfl, direction?_eq_some.2 (.inr ⟨same, rfl⟩)⟩
    · rintro ⟨item, rfl, seen⟩
      rcases direction?_eq_some.1 seen with ⟨same, rfl⟩ | ⟨same, rfl⟩
      · exact .inl (ofKind_bind_iff.2 ⟨item, [], rfl, same, rfl, rfl⟩)
      · exact .inr (ofKind_bind_iff.2 ⟨item, [], rfl, same, rfl, rfl⟩)
  have shape : ((fun entry => TableElement.ordering entry.1 entry.2) <$> Language.clusteringEntry) =
      (do
        let column ← Language.identifier
        let direction ← (do
          word .ASC
          return Direction.ascending) <|>
        (do
          word .DESC
          return Direction.descending)
        return TableElement.ordering column direction) := by
    simp only [Language.clusteringEntry, map_bind, map_orElse, map_pure, orElse_bind, bind_assoc,
      pure_bind]
  rw [shape]
  exact (recognizes_identifier _).andThen fun column => (direction column).andThen fun _ => .pure _

/-- What follows CLUSTERING ORDER. -/
theorem recognizes_clusteringOrder :
    clusteringOrder.Recognizes (do
      word .BY
      let entries ← parenthesized Language.clusteringEntry
      return Salvage.whole (Language.TableOption.clusteringOrder entries).elements) anything := by
  have entries : (closed (salvaged clusteringEntry)
      (symbol .rightParen "to close CLUSTERING ORDER")).Recognizes
      (Salvage.whole <$> do
        let entries ← Phrase.commaSeparated
          ((fun entry => TableElement.ordering entry.1 entry.2) <$> Language.clusteringEntry)
        mark .rightParen
        return entries) anything :=
    .closed (.salvaged recognizes_clusteringEntry) (.symbol _ rfl) (.ofKind (by decide))
  unfold clusteringOrder
  refine (Recognizes.keyword _ _).andThen fun _ => ?_
  simp only [parenthesized, bind_assoc, pure_bind]
  refine (Recognizes.symbol _ rfl).andThen fun _ => ?_
  refine entries.congr (fun _ _ _ => Iff.rfl) fun items result => ?_
  simp only [Phrase.commaSeparated, separated_map, map_bind, map_pure, bind_map_left]
  rfl

/-- A property as an element of a table. -/
def settingElement (setting : String × PropertyValue) : Salvage TableElement :=
  .whole (Language.TableOption.property setting.1 setting.2).elements

/-- The rule for a property among the options of a table, which looks at two tokens first. -/
def tableSetting : Rule (Salvage TableElement) := do
  let _ ← Rule.kind
  let _ ← nextKind
  let setting ← property
  return ⟨setting.toList.map fun setting => .property setting.1 setting.2, true⟩

theorem recognizes_tableSetting :
    tableSetting.Recognizes (settingElement <$> Language.property) anything := by
  have read := recognizes_property.map fun setting : Option (String × PropertyValue) =>
    (⟨setting.toList.map fun setting => .property setting.1 setting.2, true⟩ : Salvage TableElement)
  refine read.congr (fun _ _ _ => ?_) fun items result => ?_
  · rw [tableSetting, reads_kind_bind, reads_nextKind_bind]
    rfl
  · rw [Functor.map_map]
    rfl

/-- A property has a name and an equals sign in front. -/
theorem begins_setting {items : List Numbered} {result : Salvage TableElement}
    (spelled : (settingElement <$> Language.property) items result) : ∃ item item' rest,
      items = item :: item' :: rest ∧ item'.kind = .punctuation .equal := by
  obtain ⟨setting, spelled, -⟩ := map_iff.1 spelled
  obtain ⟨item, rest, name, rfl, -, spelled⟩ := token_bind_iff.1 spelled
  obtain ⟨item', rest', rfl, same, -⟩ := ofKind_bind_iff.1 spelled
  exact ⟨item, item', rest', rfl, same⟩

theorem recognizes_tableOption :
    tableOption.Recognizes
      ((fun option => Salvage.whole option.elements) <$> Language.tableOption) anything := by
  have shape : ((fun option => Salvage.whole option.elements) <$> Language.tableOption) =
      ((do
        word .COMPACT
        word .STORAGE
        return Salvage.whole Language.TableOption.compactStorage.elements) <|>
      (do
        word .CLUSTERING
        word .ORDER
        (do
          word .BY
          let entries ← parenthesized Language.clusteringEntry
          return Salvage.whole (Language.TableOption.clusteringOrder entries).elements)) <|>
      (settingElement <$> Language.property)) := by
    simp only [Language.tableOption, map_orElse, map_bind, map_pure]
    rfl
  rw [shape]
  refine recognizes_ifWords (.pure _)
    (recognizes_ifWords recognizes_clusteringOrder recognizes_tableSetting ?_) ?_
  · intro items result spelled
    obtain ⟨item, item', rest, rfl, equals⟩ := begins_setting spelled
    exact ⟨item, item', rest, rfl, fun _ => by simp [equals]⟩
  · rintro items result (spelled | spelled)
    · obtain ⟨item, rest, rfl, same, spelled⟩ := ofKind_bind_iff.1 spelled
      obtain ⟨item', rest', rfl, -⟩ := ofKind_bind_iff.1 spelled
      exact ⟨item, item', rest', rfl, fun other => by simp [same] at other⟩
    · obtain ⟨item, item', rest, rfl, equals⟩ := begins_setting spelled
      exact ⟨item, item', rest, rfl, fun _ => by simp [equals]⟩

theorem recognizes_tableOptions :
    tableOptions.Recognizes
      ((fun options => options.flatMap Language.TableOption.elements) <$> Language.tableOptions)
      fun kind => kind ≠ .keyword .WITH ∧ kind ≠ .keyword .AND := by
  have one : tableOptionOrSkip.Recognizes
      (Language.TableOption.elements <$> Language.tableOption) anything := by
    refine .restoring (recognizes_tableOption.congr (fun _ _ _ => Iff.rfl) fun items result => ?_)
    rw [Functor.map_map]
  have list : (do return (← Rule.separated (.keyword .AND) tableOptionOrSkip).flatten :
      Rule (List TableElement)).Recognizes
      ((fun options => options.flatMap Language.TableOption.elements) <$>
        Phrase.separated (word .AND) Language.tableOption) (· ≠ .keyword .AND) := by
    have lists := (Recognizes.separated (by decide) (one.narrow fun _ _ => trivial)
      fun kind (other : kind ≠ .keyword .AND) => other).map List.flatten
    refine lists.congr (fun _ _ _ => Iff.rfl) fun items result => ?_
    show _ ↔ (List.flatten <$> Phrase.separated (word .AND) _) items result
    rw [separated_map, Functor.map_map]
    rfl
  have shape : ((fun options => options.flatMap Language.TableOption.elements) <$>
        Language.tableOptions) =
      ((do
        word .WITH
        (fun options => options.flatMap Language.TableOption.elements) <$>
          Phrase.separated (word .AND) Language.tableOption) <|> pure []) := by
    simp only [Language.tableOptions, map_orElse, map_bind, map_pure, List.flatMap_nil]
  rw [shape]
  exact .clauseAfter (list.narrow fun _ => And.right) fun _ => And.left

/-! ### Lists of items -/

theorem opens_tableItem : Language.tableItem.Opens anything (· ≠ .punctuation .rightParen) :=
  .orElse (.andThen (.ofKind (by decide))) (opens_columnDefinition.avoids rfl)

theorem recognizes_tableElements :
    tableElements.Recognizes ((fun slots => slots.flatMap Language.slotElements) <$> Language.gaplessSlots)
      (· = .punctuation .rightParen) := by
  have one : tableElement.Recognizes (Language.TableItem.elements <$> Language.tableItem)
      fun kind => kind = .punctuation .rightParen ∨ kind = .punctuation .comma :=
    recognizes_tableElement.narrow fun kind ends => by rcases ends with rfl | rfl <;> decide
  have rest : (Rule.following (.punctuation .comma) do
        if (← Rule.kind) = .punctuation .rightParen then return [] else tableElement).Recognizes
      (List.map Language.slotElements <$>
        manyThen (do mark .comma; some <$> Language.tableItem) (trailing (mark .comma) none))
      (· = .punctuation .rightParen) := by
    have apart : TokenKind.punctuation .comma ≠ .punctuation .rightParen := by decide
    refine (Recognizes.followingUnless (by decide) apart one opens_tableItem.map).congr
      (fun _ _ _ => Iff.rfl) fun items result => ?_
    rw [← manyThen_map, trailing_map, map_bind, Functor.map_map]
    rfl
  have shape : ((fun slots => slots.flatMap Language.slotElements) <$> Language.gaplessSlots) =
      (do
        let first ← Language.TableItem.elements <$> Language.tableItem
        let rest ← List.map Language.slotElements <$>
          manyThen (do mark .comma; some <$> Language.tableItem) (trailing (mark .comma) none)
        return (first :: rest).flatten) := by
    simp only [Language.gaplessSlots, map_bind, map_pure, bind_map_left]
    rfl
  rw [shape]
  have opens : (manyThen (do mark .comma; some <$> Language.tableItem)
      (trailing (mark .comma) none)).Opens (· = .punctuation .rightParen)
      fun kind => kind = .punctuation .rightParen ∨ kind = .punctuation .comma :=
    .manyThen (.andThen (.ofKind (.inr rfl)))
      (.orElse (.andThen (.ofKind (.inr rfl))) (.pure _ fun _ => .inl))
  refine one.bind (fun first => rest.bind (fun rest => .pure _) fun rest => ?_) fun first => ?_
  · exact .pure _ fun _ => id
  · exact opens.map.bind fun rest => .pure _ fun _ => id

/-- The rest of CREATE TABLE is read as the grammar has it, but for gaps. -/
theorem recognizes_tableDefinition :
    tableDefinition.Recognizes (Language.TableText.definition <$> Language.gaplessText)
      fun kind => kind ≠ .keyword .WITH ∧ kind ≠ .keyword .AND := by
  have shape : Language.TableText.definition <$> Language.gaplessText =
      (do
        let table ← Language.tableName
        mark .leftParen
        let elements ← (fun slots => slots.flatMap Language.slotElements) <$> Language.gaplessSlots
        mark .rightParen
        let options ← (fun options => options.flatMap Language.TableOption.elements) <$>
          Language.tableOptions
        return .ofElements table (elements ++ options)) := by
    simp only [Language.gaplessText, map_bind, map_pure, bind_map_left,
      ← Language.TableText.ofElements_elements]
    rfl
  rw [shape]
  refine recognizes_tableName.bind (fun table => ?_) fun table => .andThen (.ofKind (by decide))
  refine (Recognizes.symbol _ rfl).andThen fun _ => ?_
  refine recognizes_tableElements.bind (fun elements => ?_) fun _ => .andThen (.ofKind rfl)
  refine (Recognizes.symbol _ rfl).andThen fun _ => ?_
  exact recognizes_tableOptions.bind (fun options => .pure _) fun _ => .pure _ fun _ => id

end Grammar

end Cql
