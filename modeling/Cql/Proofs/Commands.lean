/-
Statements about schemas, permissions and whole tables are read as the grammar has them.

Each of them is told by its first words, and no two begin alike.  Where none of the words that can
stand somewhere is there, the rule reports it, and the grammar has nothing.

* `Rule.Recognizes.never` — a rule that always reports recognizes nothing;
* `Grammar.recognizes_create`, `Grammar.recognizes_drop`, `Grammar.recognizes_alter` — statements about
  schemas;
* `Grammar.recognizes_grant`, `Grammar.recognizes_revocation` — statements about permissions.
-/
import Cql.Grammar.Statement
import Cql.Proofs.Tables

namespace Cql

open Phrase

namespace Rule.Recognizes

variable {α : Type} {follow : TokenKind → Prop}

/-- What always reports reads nothing. -/
theorem never {rule : Rule α} (reported : ∀ state a after, ¬ rule.Reads state a after) :
    rule.Recognizes nothing follow where
  sound := fun state a after reads => absurd reads (reported state a after)
  complete := fun _ _ _ _ _ spelled => spelled.elim

theorem expected {what context : String} :
    (Rule.expected what context : Rule α).Recognizes nothing follow :=
  never fun _ _ _ => not_reads_expected

/-- Whether a token comes next decides what comes after it, and may be a part of it. -/
theorem ifEaten {wanted : TokenKind} {next : Bool → Rule α} {phrase other : Phrase α}
    (plain : wanted.IsPlain) (first : (next true).Recognizes phrase follow)
    (second : (next false).Recognizes other follow) (apart : other.Opens follow (· ≠ wanted)) :
    (eatKind wanted >>= next).Recognizes ((do Phrase.ofKind wanted; phrase) <|> other) follow := by
  refine (ifEat plain first second apart).congr (fun state a after => ?_) fun _ _ => Iff.rfl
  simp [Grammar.reads_eatKind_bind]

theorem reads_eatTable_bind {next : Bool → Rule α} {state after : State} {a : α} :
    (Grammar.eatTable >>= next).Reads state a after ↔
      (eat .TABLE >>= fun eaten => if eaten = true then next true
        else eat .COLUMNFAMILY >>= next).Reads state a after := by
  unfold Grammar.eatTable eat
  rw [reads_bind, Grammar.reads_eatKind_bind]
  simp only [Grammar.reads_eatKind_bind, Bool.false_eq_true, if_true, if_false]
  by_cases same : state.kind = .keyword .TABLE
  · simp [same, reads_pure]
  · simp only [same, if_false]
    rw [← reads_bind, Grammar.reads_eatKind_bind]

/-- Either word for a table decides between two rules. -/
theorem ifTable {yes no : Rule α} {phrase other : Phrase α} (first : yes.Recognizes phrase follow)
    (second : no.Recognizes other follow)
    (apart : other.Opens follow fun kind => kind ≠ .keyword .TABLE ∧ kind ≠ .keyword .COLUMNFAMILY) :
    (Grammar.eatTable >>= fun eaten => if eaten = true then yes else no).Recognizes
      ((do Language.tableWord; phrase) <|> other) follow := by
  have apart₁ : other.Opens follow (· ≠ .keyword .COLUMNFAMILY) :=
    apart.weaken (fun _ => id) fun _ => And.right
  have apart₂ : ((do word .COLUMNFAMILY; phrase) <|> other).Opens follow (· ≠ .keyword .TABLE) :=
    .orElse (.andThen (.ofKind (by decide))) (apart.weaken (fun _ => id) fun _ => And.left)
  refine (ifEat (by decide) first (ifEat (by decide) first second apart₁) apart₂).congr
    (fun state a after => ?_) fun items a => ?_
  · rw [reads_eatTable_bind]
    rfl
  · rw [Language.tableWord, orElse_bind, orElse_assoc]
    rfl

end Rule.Recognizes

theorem Phrase.Opens.nothing {α : Type} {follow good : TokenKind → Prop} :
    (Phrase.nothing : Phrase α).Opens follow good :=
  fun _ _ _ impossible => impossible.elim

theorem Phrase.orElse_nothing {α : Type} (phrase : Phrase α) : (phrase <|> nothing) = phrase := by
  rw [orElse_comm, nothing_orElse]

namespace Grammar

open Rule

/-! ### Keyspaces and indexes -/

theorem recognizes_keyspaceDefinition :
    keyspaceDefinition.Recognizes Language.keyspaceDefinition (· ≠ .keyword .AND) := by
  refine (recognizes_identifier _).andThen fun keyspace => (Recognizes.keyword _ _).andThen fun _ => ?_
  exact recognizes_properties.bind (fun properties => .pure _) fun _ => .pure _ fun _ => id

theorem recognizes_indexName : indexName.Recognizes Language.indexName anything :=
  recognizes_accept (fun _ => rfl) fun _ => rfl

theorem recognizes_indexDefinition :
    indexDefinition.Recognizes Language.indexDefinition anything := by
  -- The rest of the statement, once it is known whether the index has a name.
  have rest : ∀ name : Option String, (do
      keyword .ON "in CREATE INDEX"
      let table ← tableName
      symbol .leftParen "after table name"
      let column ← identifier "for indexed column"
      symbol .rightParen "after indexed column"
      return ⟨name, table, column⟩ : Rule IndexDefinition).Recognizes
      (do
        word .ON
        let table ← Language.tableName
        mark .leftParen
        let column ← Language.identifier
        mark .rightParen
        return { name, table, column }) anything := by
    intro name
    refine (Recognizes.keyword _ _).andThen fun _ => ?_
    refine recognizes_tableName.bind (fun table => ?_) fun table => .andThen (.ofKind (by decide))
    refine (Recognizes.symbol _ rfl).andThen fun _ => ?_
    refine (recognizes_identifier _).andThen fun column => ?_
    exact (Recognizes.symbol _ rfl).andThen fun _ => .pure _
  have noName : (pure none : Rule (Option String)).Recognizes (pure none) anything := .pure none
  have unnamed := noName.andThen rest
  have named := (recognizes_indexName.map some).andThen rest
  have opensName : Language.indexName.Opens anything (¬ · = .keyword .ON) := by
    refine .token fun item name seen same => ?_
    simp [same] at seen
  unfold indexDefinition Language.indexDefinition
  -- The rule looks for ON first, and takes whatever else there is for a name.
  rw [orElse_bind, orElse_comm]
  exact .ifAt unnamed named (.bind (.pure _ fun _ => id) fun _ => .andThen (.ofKind rfl))
    (.andThen opensName.map)

/-! ### CREATE, DROP and ALTER -/

theorem opens_word {α : Type} {wanted : Keyword} {phrase : Phrase α} {follow good : TokenKind → Prop}
    (h : good (.keyword wanted)) : (do word wanted; phrase).Opens follow good :=
  .andThen (.ofKind h)

theorem opens_tableWord {follow good : TokenKind → Prop} (table : good (.keyword .TABLE))
    (family : good (.keyword .COLUMNFAMILY)) : Language.tableWord.Opens follow good :=
  .orElse (.ofKind table) (.ofKind family)

/-- The object that CREATE or DROP is about decides between three rules. -/
theorem recognizes_byObject {keyspace table index : Rule Statement} {p q r : Phrase Statement}
    {what context : String} {follow : TokenKind → Prop} (ofKeyspace : keyspace.Recognizes p follow)
    (ofTable : table.Recognizes q follow) (ofIndex : index.Recognizes r follow) : (do
      if ← eat .KEYSPACE then
        keyspace
      else if ← eatTable then
        table
      else if ← eat .INDEX then
        index
      else
        expected what context).Recognizes
      ((do
        word .KEYSPACE
        p) <|>
      (do
        Language.tableWord
        q) <|>
      (do
        word .INDEX
        r)) follow := by
  -- Each choice is made by a word that none of the later phrases begins with.
  have opensIndex : ((do word .INDEX; r) <|> nothing).Opens follow (· = .keyword .INDEX) :=
    .orElse (opens_word rfl) .nothing
  have notTable : ((do word .INDEX; r) <|> nothing).Opens follow
      fun kind => kind ≠ .keyword .TABLE ∧ kind ≠ .keyword .COLUMNFAMILY := by
    refine opensIndex.weaken (fun _ => id) ?_
    rintro _ rfl
    decide
  have notKeyspace : ((do Language.tableWord; q) <|> (do word .INDEX; r) <|> nothing).Opens follow
      (· ≠ .keyword .KEYSPACE) := by
    refine .orElse (.andThen (opens_tableWord (by decide) (by decide))) ?_
    refine opensIndex.weaken (fun _ => id) ?_
    rintro _ rfl
    decide
  rw [← orElse_nothing (word .INDEX >>= _)]
  exact .ifWord ofKeyspace
    (.ifTable ofTable (.ifWord ofIndex .expected .nothing) notTable) notKeyspace

/-- What follows CREATE, with a table in place of what its text says. -/
theorem recognizes_create :
    create.Recognizes (Language.creation <|> do
      Language.tableWord
      return .createTable (← Language.gaplessText).definition) (endsStatement · = true) := by
  have keyspace : (do return .createKeyspace (← keyspaceDefinition) : Rule Statement).Recognizes
      (do return .createKeyspace (← Language.keyspaceDefinition)) (endsStatement · = true) :=
    (recognizes_keyspaceDefinition.map Statement.createKeyspace).narrow fun _ ends =>
      ne_of_test ends rfl
  have table : (do return .createTable (← tableDefinition) : Rule Statement).Recognizes
      (do return .createTable (← Language.gaplessText).definition) (endsStatement · = true) := by
    refine ((recognizes_tableDefinition.map Statement.createTable).narrow fun kind ends =>
      ⟨ne_of_test ends rfl, ne_of_test ends rfl⟩).congr (fun _ _ _ => Iff.rfl) fun items s => ?_
    rw [Functor.map_map]
    rfl
  have index : (do return .createIndex (← indexDefinition) : Rule Statement).Recognizes
      (do return .createIndex (← Language.indexDefinition)) (endsStatement · = true) :=
    (recognizes_indexDefinition.map Statement.createIndex).narrow fun _ _ => trivial
  -- The words are looked for in another order.
  rw [Language.creation, orElse_assoc, orElse_comm (word .INDEX >>= _)]
  exact recognizes_byObject keyspace table index

theorem recognizes_drop : drop.Recognizes Language.dropping (endsStatement · = true) := by
  have keyspace : (do return .dropKeyspace (← keyspaceName) : Rule Statement).Recognizes
      (do return .dropKeyspace (← Language.identifier)) (endsStatement · = true) :=
    ((recognizes_identifier _).map Statement.dropKeyspace).narrow fun _ _ => trivial
  have table : (do return .dropTable (← tableName) : Rule Statement).Recognizes
      (do return .dropTable (← Language.tableName)) (endsStatement · = true) :=
    (recognizes_tableName.map Statement.dropTable).narrow fun _ ends => ne_of_test ends rfl
  have index : (do return .dropIndex (← indexName) : Rule Statement).Recognizes
      (do return .dropIndex (← Language.indexName)) (endsStatement · = true) :=
    (recognizes_indexName.map Statement.dropIndex).narrow fun _ _ => trivial
  exact recognizes_byObject keyspace table index

/-- The change of an ALTER TABLE, told by its first word. -/
theorem recognizes_tableChange :
    tableChange.Recognizes Language.tableChange (endsStatement · = true) := by
  have always : ∀ kind, endsStatement kind = true → anything kind := fun _ _ => trivial
  have typed : ∀ f : DataType → TableChange,
      (f <$> dataType).Recognizes (f <$> Language.dataType) (endsStatement · = true) :=
    fun f => (recognizes_dataType.map f).narrow always
  have retype := (recognizes_identifier "after ALTER").andThen fun column =>
    (Recognizes.keyword .TYPE "after column name").andThen fun _ => typed (.retype column)
  have add := (recognizes_identifier "after ADD").andThen fun column => typed (.add column)
  have dropped := ((recognizes_identifier "after DROP").map TableChange.drop).narrow always
  have outside : ∀ kind, endsStatement kind = true → kind ≠ .keyword .AND :=
    fun _ ends => ne_of_test ends rfl
  have settings := (recognizes_properties.map TableChange.setProperties).narrow outside
  have renamed : columnRenaming.Recognizes Language.columnRenaming anything :=
    (recognizes_identifier _).andThen fun _ => (Recognizes.keyword _ _).andThen fun _ =>
      (recognizes_identifier _).andThen fun _ => .pure _
  have renames := (Recognizes.separated (by decide) (renamed.narrow fun _ _ => trivial)
    outside).map TableChange.rename
  unfold tableChange Language.tableChange eat
  rw [← orElse_nothing (word .RENAME >>= _)]
  refine .ifWord retype (.ifWord add (.ifWord dropped
    (.ifWord settings (.ifWord renames .expected ?_) ?_) ?_) ?_) ?_
  -- None of the other changes begins with the word that is looked for.
  · exact .nothing
  · exact .orElse (opens_word (by decide)) .nothing
  · exact .orElse (opens_word (by decide)) (.orElse (opens_word (by decide)) .nothing)
  · exact .orElse (opens_word (by decide)) (.orElse (opens_word (by decide))
      (.orElse (opens_word (by decide)) .nothing))
  · exact .orElse (opens_word (by decide)) (.orElse (opens_word (by decide))
      (.orElse (opens_word (by decide)) (.orElse (opens_word (by decide)) .nothing)))

theorem recognizes_alter : alter.Recognizes Language.alteration (endsStatement · = true) := by
  have keyspace : (do return .alterKeyspace (← keyspaceDefinition) : Rule Statement).Recognizes
      (do return .alterKeyspace (← Language.keyspaceDefinition)) (endsStatement · = true) :=
    (recognizes_keyspaceDefinition.map Statement.alterKeyspace).narrow fun _ ends =>
      ne_of_test ends rfl
  have table : (do
      let table ← tableName
      return .alterTable ⟨table, ← tableChange⟩ : Rule Statement).Recognizes
      (do
        let table ← Language.tableName
        return .alterTable ⟨table, ← Language.tableChange⟩) (endsStatement · = true) := by
    refine recognizes_tableName.bind (fun table => ?_) fun table => ?_
    · exact recognizes_tableChange.map fun change => Statement.alterTable ⟨table, change⟩
    · refine .andThen (.orElse (opens_word ?_) (.orElse (opens_word ?_) (.orElse (opens_word ?_)
        (.orElse (opens_word ?_) (opens_word ?_)))))
      all_goals decide
  rw [Language.alteration, ← orElse_nothing (Language.tableWord >>= _)]
  unfold alter eat
  refine .ifWord keyspace (.ifTable table .expected .nothing) ?_
  exact .orElse (.andThen (opens_tableWord (by decide) (by decide))) .nothing

/-! ### GRANT, REVOKE and LIST GRANTS -/

theorem recognizes_permission : permission.Recognizes Language.permission anything :=
  recognizes_accept (fun _ => rfl) fun _ => rfl

theorem recognizes_userName (context : String) :
    (userName context).Recognizes Language.userName anything :=
  recognizes_accept (fun _ => rfl) fun _ => rfl

/-- A permission on a table, and whatever keyword comes next. -/
theorem recognizes_permissionOnTable {α : Type} {wanted : Keyword}
    {next : Permission × TableName → Rule α} {rest : Permission → TableName → Phrase α}
    {follow : TokenKind → Prop}
    (goesOn : ∀ permission table, (next (permission, table)).Recognizes
      (do word wanted; rest permission table) follow) :
    (permissionOnTable >>= next).Recognizes (do
      let permission ← Language.permission
      word .ON
      let resource ← Language.tableName
      word wanted
      rest permission resource) follow := by
  have pair : permissionOnTable.Recognizes (do
      let permission ← Language.permission
      word .ON
      return (permission, ← Language.tableName)) (· ≠ .punctuation .dot) := by
    refine recognizes_permission.andThen fun permission => (Recognizes.keyword _ _).andThen fun _ => ?_
    exact recognizes_tableName.map fun table => (permission, table)
  refine (pair.bind (fun both => goesOn both.1 both.2) fun both => opens_word (by simp)).congr
    (fun _ _ _ => Iff.rfl) fun items a => ?_
  simp only [bind_assoc, pure_bind]

theorem recognizes_grant : grant.Recognizes Language.grant (· ≠ .keyword .WITH) := by
  have option : ∀ permission resource user, (do
      let withGrantOption ← eat .WITH
      if withGrantOption then
        keyword .GRANT "after WITH"
        keyword .OPTION "after WITH GRANT"
      return { permission, resource, user, withGrantOption } : Rule Grant).Recognizes
      (do return { permission, resource, user, withGrantOption := ← Language.grantOption })
      (· ≠ .keyword .WITH) := by
    intro permission resource user
    have granted : ∀ withGrantOption, (pure { permission, resource, user, withGrantOption } :
        Rule Grant).Recognizes (pure _) (· ≠ .keyword .WITH) := fun _ => .pure _
    have yes := (Recognizes.keyword .GRANT "after WITH").andThen fun _ =>
      (Recognizes.keyword .OPTION "after WITH GRANT").andThen fun _ =>
        granted true
    have apart : (pure (Grant.mk permission resource user false) : Phrase Grant).Opens
        (· ≠ .keyword .WITH) (· ≠ .keyword .WITH) := .pure _ fun _ => id
    refine (Recognizes.ifEaten (by decide) yes (granted false) apart).congr
      (fun _ _ _ => Iff.rfl) fun items grant => ?_
    simp only [Language.grantOption, orElse_bind, bind_assoc, pure_bind]
    rfl
  refine recognizes_permissionOnTable fun permission resource => ?_
  refine (Recognizes.keyword _ _).andThen fun _ => ?_
  exact (recognizes_userName _).andThen fun user => option permission resource user

theorem recognizes_revocation : revocation.Recognizes Language.revocation anything := by
  refine recognizes_permissionOnTable fun permission resource => ?_
  refine (Recognizes.keyword _ _).andThen fun _ => ?_
  exact (recognizes_userName _).map fun user => Revocation.mk permission resource user

theorem recognizes_grantsOfUser : grantsOfUser.Recognizes Language.grantsOfUser anything :=
  (Recognizes.keyword _ _).andThen fun _ => (Recognizes.keyword _ _).andThen fun _ =>
    recognizes_userName _

end Grammar

end Cql
