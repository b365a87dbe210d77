/-
Statements that hold no bind markers.

The grammar of statements about schemas, permissions and whole tables has no place for a bind marker,
so no stretch that stands for one of them holds any.

* `Statement.isAdministrative` — the statements that hold no markers;
* `Language.bare_dataType`, `Language.bare_properties`, `Language.bare_tableText` — their parts;
* `Language.bare_administrativeStatement`, `Language.bare_tableStatement` — the statements.
-/
import Cql.Proofs.Spelling
import Cql.Proofs.Tables

namespace Cql

namespace Statement

/-- Is it INSERT, UPDATE, DELETE or a batch? -/
def isModification : Statement → Bool
  | insert _ | update _ | delete _ | batch _ => true
  | _ => false

def isSelection : Statement → Bool
  | select _ => true
  | _ => false

/-- Is it a statement about anything but the rows of a table? -/
def isAdministrative (statement : Statement) : Bool :=
  !statement.isModification && !statement.isSelection

/-- Is it CREATE TABLE? -/
def isTableCreation : Statement → Bool
  | createTable _ => true
  | _ => false

/-- Is it USE, TRUNCATE, GRANT, REVOKE or LIST GRANTS, or a statement about the schema other than
CREATE TABLE? -/
def isCommand : Statement → Bool
  | use _ | truncate _ | createKeyspace _ | createIndex _ | dropKeyspace _ | dropTable _ | dropIndex _
  | alterTable _ | alterKeyspace _ | grant _ | revoke _ | listGrants _ => true
  | _ => false

theorem isAdministrative_of_isCommand {statement : Statement} (h : statement.isCommand = true) :
    statement.isAdministrative = true := by
  cases statement with
  | select | insert | update | delete | batch | createTable => exact absurd h (by simp [isCommand])
  | _ => rfl

theorem isAdministrative_of_isTableCreation {statement : Statement}
    (h : statement.isTableCreation = true) : statement.isAdministrative = true := by
  cases statement with
  | createTable => rfl
  | _ => exact absurd h (by simp [isTableCreation])

theorem markers_of_isAdministrative {statement : Statement} (h : statement.isAdministrative = true) :
    statement.markers = [] := by
  cases statement with
  | select | insert | update | delete | batch => exact absurd h (by simp [isAdministrative,
      isModification, isSelection])
  | _ => rfl

end Statement

namespace Language

open Phrase

/-! ### Types -/

theorem bare_simpleType : simpleType.Bare := by
  refine .token fun item type seen => ⟨?_, ?_⟩
  · intro same
    simp [same] at seen
  · intro same
    have noType : NativeType.ofKeyword? .USING = none := by decide
    simp [same, noType] at seen

theorem bare_typeOf {phrase : Phrase DataType} (element : phrase.Bare) : (typeOf phrase).Bare := by
  have inAngles : (inAngles phrase).Bare :=
    .afterMark rfl (element.skip fun _ =>
      .afterMark rfl (.pure rfl))
  have map : (mapType phrase).Bare :=
    .afterWord rfl (.afterMark rfl
      (element.skip fun _ => .afterMark rfl (element.skip fun _ =>
        .afterMark rfl (.pure rfl))))
  refine map.orElse (.orElse ?_ (.orElse ?_ bare_simpleType))
  · exact .afterWord rfl (inAngles.skip fun _ => .pure rfl)
  · exact .afterWord rfl (inAngles.skip fun _ => .pure rfl)

theorem bare_typeWithin (levels : Nat) : (typeWithin levels).Bare := by
  induction levels with
  | zero => exact bare_simpleType
  | succ levels ih => exact bare_typeOf ih

theorem bare_dataType : dataType.Bare := bare_typeWithin maxNesting

/-! ### Properties -/

theorem bare_constantText : constantText.Bare := by
  refine .token fun item text seen => ⟨?_, ?_⟩
  · intro same
    simp [same, Term.ofKind?] at seen
  · intro same
    simp [same, Term.ofKind?] at seen

theorem bare_unreservedWord : unreservedWord.Bare := by
  refine .token fun item text seen => ⟨?_, ?_⟩
  · intro same
    simp [same, TokenKind.isUnreservedKeyword] at seen
  · intro same
    simp [same, TokenKind.isUnreservedKeyword, Keyword.isUnreserved, Keyword.isNativeType] at seen

theorem bare_propertyMap : propertyMap.Bare := by
  have entry : propertyEntry.Bare :=
    bare_constantText.skip fun _ => .afterMark rfl (bare_constantText.skip fun _ => .pure rfl)
  have entries : (commaSeparated propertyEntry <|> pure []).Bare :=
    .orElse (.bare_of_flatMap (.commaSeparated entry)) (.pure rfl)
  exact .afterMark rfl (entries.skip fun _ =>
    .afterMark rfl (.pure rfl))

theorem bare_property : property.Bare := by
  have value : propertyValue.Bare :=
    .orElse (.map bare_constantText) (.orElse (.map bare_unreservedWord) bare_propertyMap)
  exact bare_identifier.skip fun _ => .afterMark rfl (value.skip fun _ => .pure rfl)

theorem bare_properties : properties.Bare := by
  have list : (separated (word .AND) property).Bare :=
    .bare_of_flatMap (.separated (bare_word rfl) bare_property)
  exact list.skip fun _ => .pure rfl

/-! ### CREATE TABLE -/

theorem bare_tableItem : tableItem.Bare := by
  have columns : (parenthesized identifier).Bare := .bare_of_flatMap (.parenthesized bare_identifier)
  have component : keyComponent.Bare :=
    columns.orElse (bare_identifier.skip fun _ => .pure rfl)
  have clustering : (many do mark .comma; identifier).Bare :=
    .bare_of_flatMap (.many (.afterMark rfl bare_identifier))
  have key : primaryKey.Bare :=
    .afterWord rfl (.afterWord rfl
      (.afterMark rfl (component.skip fun _ => clustering.skip fun _ =>
        .afterMark rfl (.pure rfl))))
  have marked : keyMark.Bare :=
    .orElse (.afterWord rfl (.afterWord rfl (.pure rfl)))
      (.pure rfl)
  exact key.orElse (bare_identifier.skip fun _ => bare_dataType.skip fun _ =>
    marked.skip fun _ => .pure rfl)

theorem bare_tableOption : tableOption.Bare := by
  have entry : clusteringEntry.Bare :=
    bare_identifier.skip fun _ => .orElse (.afterWord rfl (.pure rfl))
      (.afterWord rfl (.pure rfl))
  have entries : (parenthesized clusteringEntry).Bare := .bare_of_flatMap (.parenthesized entry)
  refine .orElse ?_ (.orElse ?_ ?_)
  · exact .afterWord rfl (.afterWord rfl (.pure rfl))
  · exact .afterWord rfl (.afterWord rfl (.afterWord rfl (entries.skip fun _ => .pure rfl)))
  · exact bare_property.skip fun _ => .pure rfl

theorem bare_tableText : tableText.Bare := by
  have slot : ((some <$> tableItem) <|> pure none).Bare := .orElse (.map bare_tableItem) (.pure rfl)
  have rest : (many do mark .comma; (some <$> tableItem) <|> pure none).Bare :=
    .bare_of_flatMap (.many (.afterMark rfl slot))
  have slots : tableSlots.Bare := bare_tableItem.skip fun _ => rest.skip fun _ => .pure rfl
  have list : (separated (word .AND) tableOption).Bare :=
    .bare_of_flatMap (.separated (bare_word rfl) bare_tableOption)
  have options : tableOptions.Bare := .orElse (.afterWord rfl list) (.pure rfl)
  exact bare_tableName.skip fun _ => .afterMark rfl (slots.skip fun _ =>
    .afterMark rfl (options.skip fun _ => .pure rfl))

/-! ### Statements -/

theorem bare_tableWord : tableWord.Bare :=
  .orElse (bare_word rfl) (bare_word rfl)

theorem bare_tableStatement : tableStatement.Bare := by
  have text : gaplessText.Bare := fun items text spelled =>
    bare_tableText items text (gaplessText_iff.1 spelled).1
  exact .afterWord rfl (bare_tableWord.skip fun _ =>
    text.skip fun _ => .pure rfl)

/-- A keyword, and a phrase without markers after it. -/
theorem bare_after {α β : Type} {keyword : Keyword} {phrase : Phrase α} {f : α → β}
    (other : (keyword == .USING) = false) (bare : phrase.Bare) :
    (do word keyword; return f (← phrase)).Bare :=
  .afterWord other (bare.skip fun _ => .pure rfl)

theorem bare_keyspaceDefinition : keyspaceDefinition.Bare :=
  bare_identifier.skip fun _ => .afterWord rfl (bare_properties.skip fun _ => .pure rfl)

theorem bare_indexName : indexName.Bare := by
  refine .token fun item name seen => ⟨?_, ?_⟩
  · intro same
    simp [same] at seen
  · intro same
    simp [same] at seen

theorem bare_creation : creation.Bare := by
  have name : ((some <$> indexName) <|> pure none).Bare := .orElse (.map bare_indexName) (.pure rfl)
  have index : indexDefinition.Bare :=
    name.skip fun _ => .afterWord rfl (bare_tableName.skip fun _ =>
      .afterMark rfl (bare_identifier.skip fun _ =>
        .afterMark rfl (.pure rfl)))
  exact .orElse (bare_after rfl bare_keyspaceDefinition) (bare_after rfl index)

theorem bare_dropping : dropping.Bare :=
  .orElse (bare_after rfl bare_identifier)
    (.orElse (bare_tableWord.skip fun _ => bare_tableName.skip fun _ => .pure rfl)
      (bare_after rfl bare_indexName))

theorem bare_tableChange : tableChange.Bare := by
  have renamed : columnRenaming.Bare :=
    bare_identifier.skip fun _ => .afterWord rfl (bare_identifier.skip fun _ => .pure rfl)
  have renames : (separated (word .AND) columnRenaming).Bare :=
    .bare_of_flatMap (.separated (bare_word rfl) renamed)
  refine .orElse ?_ (.orElse ?_ (.orElse ?_ (.orElse ?_ ?_)))
  · exact .afterWord rfl (bare_identifier.skip fun _ =>
      .afterWord rfl (bare_dataType.skip fun _ => .pure rfl))
  · exact .afterWord rfl (bare_identifier.skip fun _ =>
      bare_dataType.skip fun _ => .pure rfl)
  · exact bare_after rfl bare_identifier
  · exact bare_after rfl bare_properties
  · exact bare_after rfl renames

theorem bare_alteration : alteration.Bare :=
  .orElse (bare_after rfl bare_keyspaceDefinition)
    (bare_tableWord.skip fun _ => bare_tableName.skip fun _ => bare_tableChange.skip fun _ => .pure rfl)

theorem bare_permission : permission.Bare := by
  refine .token fun item permission seen => ⟨?_, ?_⟩
  · intro same
    simp [same] at seen
  · intro same
    have noPermission : Permission.ofKeyword? .USING = none := by decide
    simp [same, noPermission] at seen

theorem bare_userName : userName.Bare := by
  refine .token fun item name seen => ⟨?_, ?_⟩
  · intro same
    simp [same] at seen
  · intro same
    simp [same] at seen

theorem bare_grant : grant.Bare := by
  have option : grantOption.Bare :=
    .orElse (.afterWord rfl (.afterWord rfl (.afterWord rfl (.pure rfl)))) (.pure rfl)
  exact bare_permission.skip fun _ => .afterWord rfl
    (bare_tableName.skip fun _ => .afterWord rfl (bare_userName.skip fun _ =>
      option.skip fun _ => .pure rfl))

theorem bare_revocation : revocation.Bare :=
  bare_permission.skip fun _ => .afterWord rfl (bare_tableName.skip fun _ =>
    .afterWord rfl (bare_userName.skip fun _ => .pure rfl))

theorem bare_grantsOfUser : grantsOfUser.Bare :=
  .afterWord rfl (.afterWord rfl bare_userName)

theorem bare_administrativeStatement : administrativeStatement.Bare := by
  refine .orElse (bare_after rfl bare_identifier) ?_
  refine .orElse (bare_after rfl bare_tableName) ?_
  refine .orElse (.afterWord rfl bare_creation) ?_
  refine .orElse (.afterWord rfl bare_dropping) ?_
  refine .orElse (.afterWord rfl bare_alteration) ?_
  refine .orElse (bare_after rfl bare_grant) ?_
  refine .orElse (bare_after rfl bare_revocation) ?_
  exact bare_after rfl bare_grantsOfUser

end Language

end Cql
