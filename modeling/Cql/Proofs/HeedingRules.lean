/-
The rules of the grammar heed the end of the input.

A rule takes a token because of what it is, and nothing is an end of input.  The few rules that take a
token without naming it have looked at its kind before.  The one rule of which this is not true is the
recovery of a batch, which takes whatever stands behind a broken statement.

* `Grammar.heedsEnd_objectives`, `Grammar.heedsEnd_projection`, `Grammar.heedsEnd_tableOption` — the
  rules that look behind the current token;
* `Grammar.heedsEnd_insertion`, `Grammar.heedsEnd_update`, `Grammar.heedsEnd_deletion` — what a batch
  holds;
* `Grammar.heedsEnd_statementAfter` — **every statement but a batch heeds the end of the input**.
-/
import Cql.Grammar.Statement
import Cql.Proofs.Prolongation

namespace Cql.Grammar

open Rule (HeedsEnd HeedsEndAt)
open Rule.HeedsEnd

/-! ### Names and values -/

theorem heedsEnd_identifier (context : String) : (identifier context).HeedsEnd :=
  accept _ _ fun _ => rfl

theorem heedsEnd_identifiers (context : String) : (identifiers context).HeedsEnd :=
  commaSeparated (heedsEnd_identifier _)

theorem heedsEnd_tableName : tableName.HeedsEnd :=
  (heedsEnd_identifier _).bind fun _ => (eatMark _).bind fun _ =>
    ite ((heedsEnd_identifier _).bind fun _ => pure _) (pure _)

theorem heedsEnd_userName (context : String) : (userName context).HeedsEnd :=
  accept _ _ fun _ => rfl

theorem heedsEnd_indexName : indexName.HeedsEnd := accept _ _ fun _ => rfl

theorem heedsEnd_markerOr {constant? : TokenKind → Option Term} (what context : String)
    (unread : constant? .endOfInput = none) : (markerOr constant? what context).HeedsEnd := by
  refine marker.bind fun ordinal => ?_
  cases ordinal with
  | none => exact accept _ _ fun _ => unread
  | some ordinal => exact pure _

theorem heedsEnd_scalar (context : String) : (scalar context).HeedsEnd := heedsEnd_markerOr _ _ rfl

section

variable {value : String → Rule Value} (h : ∀ context, (value context).HeedsEnd)
include h

theorem heedsEnd_listLiteral : (listLiteral value).HeedsEnd :=
  (symbol _ _).bind fun _ => (eatMark _).bind fun _ => ite (pure _)
    ((commaSeparated (h _)).bind fun _ => (symbol _ _).bind fun _ => pure _)

theorem heedsEnd_mapEntry : (mapEntry value).HeedsEnd :=
  (h _).bind fun _ => (symbol _ _).bind fun _ => (h _).bind fun _ => pure _

theorem heedsEnd_bracedLiteral : (bracedLiteral value).HeedsEnd := by
  refine (symbol _ _).bind fun _ => (eatMark _).bind fun _ => ite (pure _) ?_
  refine (h _).bind fun _ => (eatMark _).bind fun _ => ite ?_ ?_
  · exact (h _).bind fun _ => (following (heedsEnd_mapEntry h) (by simp)).bind fun _ =>
      (symbol _ _).bind fun _ => pure _
  · exact (following (h _) (by simp)).bind fun _ => (symbol _ _).bind fun _ => pure _

end

theorem heedsEnd_scalarOr {list braced : Rule Value} (context : String) (first : list.HeedsEnd)
    (second : braced.HeedsEnd) : (scalarOr list braced context).HeedsEnd := by
  refine kind_bind fun current => ?_
  split
  · exact first
  · exact second
  · exact (heedsEnd_scalar _).bind fun _ => pure _

theorem heedsEnd_value (context : String) : (value context).HeedsEnd := by
  have within : ∀ levels context, (valueWithin levels context).HeedsEnd := by
    intro levels
    induction levels with
    | zero => exact fun context => heedsEnd_scalarOr context tooDeep tooDeep
    | succ levels ih =>
      exact fun context => heedsEnd_scalarOr context (heedsEnd_listLiteral ih) (heedsEnd_bracedLiteral ih)
  exact within maxNesting context

theorem heedsEnd_values (context : String) : (values context).HeedsEnd :=
  commaSeparated (heedsEnd_value _)

theorem heedsEnd_mapLiteral : (mapLiteral value).HeedsEnd :=
  (symbol _ _).bind fun _ => (eatMark _).bind fun _ => ite (pure _)
    ((commaSeparated (heedsEnd_mapEntry heedsEnd_value)).bind fun _ => (symbol _ _).bind fun _ => pure _)

/-! ### Relations -/

theorem heedsEnd_comparison : comparison.HeedsEnd := accept _ _ fun _ => rfl

theorem heedsEnd_tokenRelation (first : Nat) : (tokenRelation first).HeedsEnd := by
  refine (symbol _ _).bind fun _ => (heedsEnd_identifiers _).bind fun _ => (symbol _ _).bind fun _ =>
    heedsEnd_comparison.bind fun _ => (eat _).bind fun _ => ite ?_ ?_
  · exact (symbol _ _).bind fun _ => (heedsEnd_values _).bind fun _ => (symbol _ _).bind fun _ =>
      ite (pure _) ((since _).bind fun _ => (report _ _).bind fun _ => pure _)
  · exact (heedsEnd_value _).bind fun _ => pure _

theorem heedsEnd_relation : relation.HeedsEnd := by
  refine position.bind fun _ => (eat _).bind fun _ => ite (heedsEnd_tokenRelation _) ?_
  refine (heedsEnd_identifier _).bind fun _ => (eat _).bind fun _ => ite ?_ ?_
  · exact (symbol _ _).bind fun _ => (heedsEnd_values _).bind fun _ => (symbol _ _).bind fun _ => pure _
  · exact heedsEnd_comparison.bind fun _ => (heedsEnd_value _).bind fun _ => pure _

theorem heedsEnd_relations : relations.HeedsEnd := gather (by simp) _ heedsEnd_relation

/-! ### INSERT and DELETE -/

/-- An AND is taken if an objective stands behind it. -/
theorem heedsEnd_objectiveValue (objective : TokenKind) : (objectiveValue objective).HeedsEnd := by
  refine (heedsEnd_markerOr _ _ rfl).bind fun _ state => .kind_nextKind_bind (fun inside => ?_)
    (fun _ => by simp) (.pure _)
  split
  · exact .advance_bind inside (.pure _)
  · exact .pure _

theorem heedsEnd_objectives : objectives.HeedsEnd := by
  have settings : (Rule.many TokenKind.isObjective (fun _ => true) fun objective => do
      return (objective.kind, ← objectiveValue objective.kind)).HeedsEnd :=
    many rfl fun lexeme => (heedsEnd_objectiveValue lexeme.kind).bind fun _ => pure _
  exact kind_bind fun _ => ite ((expected _ _).bind fun _ => settings.bind fun _ => pure _)
    (settings.bind fun _ => pure _)

theorem heedsEnd_usingClause : usingClause.HeedsEnd :=
  (eat _).bind fun _ => ite heedsEnd_objectives (pure _)

theorem heedsEnd_insertion : insertion.HeedsEnd :=
  (keyword _ _).bind fun _ => heedsEnd_tableName.bind fun _ => (symbol _ _).bind fun _ =>
    (twoOrMore (heedsEnd_identifier _) _).bind fun _ => (symbol _ _).bind fun _ =>
    (keyword _ _).bind fun _ => (symbol _ _).bind fun _ =>
    (twoOrMore (heedsEnd_value _) _).bind fun _ => (symbol _ _).bind fun _ =>
    heedsEnd_usingClause.bind fun _ => pure _

theorem heedsEnd_elementKey : elementKey.HeedsEnd :=
  (heedsEnd_value _).bind fun _ => (symbol _ _).bind fun _ => pure _

theorem heedsEnd_deletionTarget : deletionTarget.HeedsEnd :=
  (heedsEnd_identifier _).bind fun _ => (eatMark _).bind fun _ =>
    ite (heedsEnd_elementKey.bind fun _ => pure _) (pure _)

theorem heedsEnd_timestampClause : timestampClause.HeedsEnd :=
  (eat _).bind fun _ => ite
    ((keyword _ _).bind fun _ => (heedsEnd_markerOr _ _ rfl).bind fun _ => pure _) (pure _)

theorem heedsEnd_deletion : deletion.HeedsEnd := by
  have rest : ∀ targets, (do
      Rule.keyword .FROM "in DELETE"
      let table ← tableName
      let attributes ← timestampClause
      Rule.keyword .WHERE "in DELETE"
      let relations ← relations
      return { table, targets, attributes, relations } : Rule Deletion).HeedsEnd := fun _ =>
    (keyword _ _).bind fun _ => heedsEnd_tableName.bind fun _ => heedsEnd_timestampClause.bind fun _ =>
      (keyword _ _).bind fun _ => heedsEnd_relations.bind fun _ => pure _
  refine kind_bind fun _ => ?_
  split
  · exact (HeedsEnd.pure _).bind fun _ => rest _
  · exact (commaSeparated heedsEnd_deletionTarget).bind fun _ => rest _

/-! ### UPDATE -/

theorem heedsEnd_elementAssignment : elementAssignment.HeedsEnd :=
  heedsEnd_elementKey.bind fun _ => (symbol _ _).bind fun _ => (heedsEnd_value _).bind fun _ => pure _

theorem heedsEnd_plainAssignment (column : Identifier) : (plainAssignment column).HeedsEnd := by
  refine (heedsEnd_value _).bind fun _ => (eatMark _).bind fun _ => ite ?_ (pure _)
  exact here.bind fun _ => (heedsEnd_identifier _).bind fun _ =>
    ite ((report _ _).bind fun _ => pure _) (pure _)

section

variable {checkColumns : Rule Unit} (checks : checkColumns.HeedsEnd) {state : State}
  (inside : state.kind ≠ .endOfInput)
include checks inside

/-- The sign has been looked at before. -/
theorem heedsEndAt_signedChange (sign : Sign) : (signedChange sign checkColumns).HeedsEndAt state := by
  refine .advance_bind inside (here.bind (fun _ => (heedsEnd_value _).bind fun _ =>
    checks.bind fun _ => ?_) _)
  split
  · exact pure _
  · exact fail _ _

theorem heedsEndAt_unsignedChange (digits : String) :
    (unsignedChange digits checkColumns).HeedsEndAt state :=
  .bind (here _) fun _ _ => .advance_bind inside
    ((checks.bind fun _ => ite (pure _) (abort _ _)) _)

end

theorem heedsEnd_selfAssignment (column : Identifier) : (selfAssignment column).HeedsEnd := by
  refine here.bind fun place => (heedsEnd_identifier _).bind fun other => ?_
  have checks : (if (other == column) = true then Pure.pure ()
      else Rule.report .startsFromOther place : Rule Unit).HeedsEnd := ite (pure _) (report _ _)
  refine kind_bind_at fun state => ?_
  split
  · rename_i current
    exact heedsEndAt_signedChange checks (by simp [current]) _
  · rename_i current
    exact heedsEndAt_signedChange checks (by simp [current]) _
  · rename_i current
    exact heedsEndAt_unsignedChange checks (by simp [current]) _
  · exact ((heedsEnd_scalar _).bind fun _ => checks.bind fun _ => pure _) state
  · exact expected _ _ state

theorem heedsEnd_assignment : assignment.HeedsEnd := by
  refine (heedsEnd_identifier _).bind fun column => (eatMark _).bind fun _ => ?_
  refine ite (heedsEnd_elementAssignment.bind fun _ => pure _) ((symbol _ _).bind fun _ => ?_)
  exact kind_bind fun _ => ite ((heedsEnd_selfAssignment _).bind fun _ => pure _)
    ((heedsEnd_plainAssignment _).bind fun _ => pure _)

theorem heedsEnd_update : update.HeedsEnd :=
  heedsEnd_tableName.bind fun _ => heedsEnd_usingClause.bind fun _ => (keyword _ _).bind fun _ =>
    (gather (by simp) _ (heedsEnd_assignment.map _)).bind fun _ => (keyword _ _).bind fun _ =>
    heedsEnd_relations.bind fun _ => pure _

theorem heedsEnd_modificationAfter {opening : TokenKind} {rule : Rule Modification}
    (known : modificationAfter? opening = some rule) : rule.HeedsEnd := by
  unfold modificationAfter? at known
  split at known
  · exact Option.some.inj known ▸ heedsEnd_insertion.map _
  · exact Option.some.inj known ▸ heedsEnd_update.map _
  · exact Option.some.inj known ▸ heedsEnd_deletion.map _
  · exact absurd known (by simp)

/-! ### SELECT -/

/-- The name of a function is taken once it is known to be there. -/
theorem heedsEnd_ifFunction {α : Type} {name : Keyword} {yes : Unit → Rule α} {no : Rule α}
    (first : (yes ()).HeedsEnd) (second : no.HeedsEnd) :
    (atFunction name >>= fun found => if found then Rule.advance >>= yes else no).HeedsEnd := by
  have looks : ∀ state : State, (atFunction name).run state =
      ⟨.ok (decide (state.kind = .keyword name) &&
        decide ((state.lexeme 1).kind = .punctuation .leftParen)), state, []⟩ := fun _ => rfl
  refine fun state => .bind (.kind_nextKind_bind (fun _ => .pure _) (fun _ => by simp) (.pure _)) ?_
  rw [looks]
  rintro found ⟨⟩
  split
  · rename_i isFunction
    have current : state.kind = .keyword name := of_decide_eq_true (Bool.and_eq_true_iff.1 isFunction).1
    exact .advance_bind (by simp [current]) (first _)
  · exact second _

theorem heedsEnd_integerText (context : String) : (integerText context).HeedsEnd :=
  accept _ _ fun _ => rfl

theorem heedsEnd_countArgument : countArgument.HeedsEnd :=
  (eatMark _).bind fun _ => ite (pure _) (here.bind fun _ => (heedsEnd_integerText _).bind fun _ =>
    ite (report _ _) (pure _))

theorem heedsEnd_functionArgument : functionArgument.HeedsEnd :=
  (symbol _ _).bind fun _ => (heedsEnd_identifier _).bind fun _ => (symbol _ _).bind fun _ => pure _

theorem heedsEnd_selector : selector.HeedsEnd :=
  heedsEnd_ifFunction (heedsEnd_functionArgument.bind fun _ => pure _)
    (heedsEnd_ifFunction (heedsEnd_functionArgument.bind fun _ => pure _)
      ((heedsEnd_identifier _).bind fun _ => pure _))

theorem heedsEnd_projection : projection.HeedsEnd := by
  refine heedsEnd_ifFunction ?_ ((eatMark _).bind fun _ => ite (pure _) ?_)
  · exact (symbol _ _).bind fun _ => heedsEnd_countArgument.bind fun _ => (symbol _ _).bind fun _ =>
      pure _
  · exact (commaSeparated heedsEnd_selector).bind fun _ => pure _

theorem heedsEnd_orderClause : orderClause.HeedsEnd := by
  have direction : direction.HeedsEnd :=
    (eat _).bind fun _ => ite (pure _) ((eat _).bind fun _ => pure _)
  have ordering : ordering.HeedsEnd :=
    (heedsEnd_identifier _).bind fun _ => direction.bind fun _ => pure _
  exact (eat _).bind fun _ => ite
    ((keyword _ _).bind fun _ => (commaSeparated ordering).bind fun _ => pure _) (pure _)

theorem heedsEnd_limitClause : limitClause.HeedsEnd := by
  refine (eat _).bind fun _ => ite (here.bind fun _ => (heedsEnd_integerText _).bind fun text => ?_) (pure _)
  cases Integer.bounded? 32 text with
  | some limit => exact pure _
  | none => exact (report _ _).bind fun _ => pure _

theorem heedsEnd_filteringClause : filteringClause.HeedsEnd :=
  (eat _).bind fun _ => ite ((keyword _ _).bind fun _ => pure _) (pure _)

theorem heedsEnd_selection : selection.HeedsEnd := by
  refine heedsEnd_projection.bind fun _ => (keyword _ _).bind fun _ => heedsEnd_tableName.bind fun _ =>
    (eat _).bind fun _ => ?_
  have clauses : ∀ {β : Type} (result : ColumnOrder → Int → Bool → β), (do
      let orderings ← orderClause
      let limit ← limitClause
      let allowFiltering ← filteringClause
      return result orderings limit allowFiltering : Rule β).HeedsEnd := fun _ =>
    heedsEnd_orderClause.bind fun _ => heedsEnd_limitClause.bind fun _ =>
      heedsEnd_filteringClause.bind fun _ => pure _
  split
  · exact heedsEnd_relations.bind fun _ => clauses _
  · exact (HeedsEnd.pure _).bind fun _ => clauses _

/-! ### Schemas -/

theorem heedsEnd_typeOf {element : Rule DataType} (h : element.HeedsEnd) : (typeOf element).HeedsEnd := by
  refine kind_bind_at fun state => ?_
  split
  · rename_i current
    exact .advance_bind (by simp [current]) (((symbol _ _).bind fun _ => h.bind fun _ =>
      (symbol _ _).bind fun _ => h.bind fun _ => (symbol _ _).bind fun _ => pure _) _)
  · rename_i current
    exact .advance_bind (by simp [current])
      (((symbol _ _).bind fun _ => h.bind fun _ => (symbol _ _).bind fun _ => pure _) _)
  · rename_i current
    exact .advance_bind (by simp [current])
      (((symbol _ _).bind fun _ => h.bind fun _ => (symbol _ _).bind fun _ => pure _) _)
  · rename_i current
    exact .advance_bind (by simp [current]) (.pure _)
  · exact (accept _ _ fun _ => rfl).map _ state

theorem heedsEnd_dataType : dataType.HeedsEnd := by
  have within : ∀ levels, (typeWithin levels).HeedsEnd := by
    intro levels
    induction levels with
    | zero => exact heedsEnd_typeOf tooDeep
    | succ levels ih => exact heedsEnd_typeOf ih
  exact within maxNesting

theorem heedsEnd_propertyMap : propertyMap.HeedsEnd := by
  refine position.bind fun _ => heedsEnd_mapLiteral.bind fun _ => ?_
  dsimp only
  split
  · exact (since _).bind fun _ => (report _ _).bind fun _ => pure _
  · exact pure _

theorem heedsEnd_property : property.HeedsEnd := by
  refine (heedsEnd_identifier _).bind fun name => (symbol _ _).bind fun _ => kind_bind_at fun state => ?_
  split
  · exact (heedsEnd_propertyMap.bind fun _ => pure _) state
  · rename_i current
    exact .bind (here _) fun _ _ => .bind (report _ _ _) fun _ _ =>
      .advance_bind (show state.kind ≠ _ by simp [current]) (.pure _)
  · exact ((accept _ _ fun _ => rfl).bind fun _ => pure _) state

theorem heedsEnd_properties : properties.HeedsEnd :=
  (separated heedsEnd_property (by simp)).bind fun _ => pure _

theorem heedsEnd_keyComponent : keyComponent.HeedsEnd :=
  (eatMark _).bind fun _ => ite
    ((heedsEnd_identifiers _).bind fun _ => (symbol _ _).bind fun _ => pure _)
    ((heedsEnd_identifier _).bind fun _ => pure _)

theorem heedsEnd_primaryKey : primaryKey.HeedsEnd :=
  (keyword _ _).bind fun _ => (symbol _ _).bind fun _ => heedsEnd_keyComponent.bind fun _ =>
    (closed (salvagedAfterComma (heedsEnd_identifier _)) (symbol _ _)).bind fun _ => pure _

theorem heedsEnd_columnDefinition : columnDefinition.HeedsEnd :=
  (heedsEnd_identifier _).bind fun _ => heedsEnd_dataType.bind fun _ => (eat _).bind fun _ =>
    ite ((keyword _ _).bind fun _ => pure _) (pure _)

theorem heedsEnd_tableElement : tableElement.HeedsEnd :=
  restoring _ ((eat _).bind fun _ => ite heedsEnd_primaryKey heedsEnd_columnDefinition)

theorem heedsEnd_tableElements : tableElements.HeedsEnd := by
  refine heedsEnd_tableElement.bind fun _ => (following ?_ (by simp)).bind fun _ => pure _
  exact kind_bind fun _ => ite (pure _) heedsEnd_tableElement

theorem heedsEnd_clusteringOrder : clusteringOrder.HeedsEnd := by
  have entry : clusteringEntry.HeedsEnd :=
    (heedsEnd_identifier _).bind fun _ => (accept _ _ fun _ => rfl).bind fun _ => pure _
  exact (keyword _ _).bind fun _ => (symbol _ _).bind fun _ => closed (salvaged entry) (symbol _ _)

/-- The second word of an option is taken as well once it is known to be there. -/
theorem heedsEnd_tableOption : tableOption.HeedsEnd := by
  refine fun state => .kind_nextKind_bind (fun inside => ?_) (fun _ => by simp)
    ((heedsEnd_property.bind fun _ => pure _) state)
  split
  · rename_i words
    have second : state.advance.kind = .keyword .STORAGE := by
      rw [State.kind_advance inside]
      exact of_decide_eq_true (Bool.and_eq_true_iff.1 words).2
    exact .advance_bind inside (.advance_bind (by simp [second]) (.pure _))
  · split
    · rename_i words
      have second : state.advance.kind = .keyword .ORDER := by
        rw [State.kind_advance inside]
        exact of_decide_eq_true (Bool.and_eq_true_iff.1 words).2
      exact .advance_bind inside (.advance_bind (by simp [second]) (heedsEnd_clusteringOrder _))
    · exact (heedsEnd_property.bind fun _ => pure _) state

theorem heedsEnd_tableOptions : tableOptions.HeedsEnd :=
  (eat _).bind fun _ => ite
    ((separated (restoring _ heedsEnd_tableOption) (by simp)).bind fun _ => pure _) (pure _)

theorem heedsEnd_tableDefinition : tableDefinition.HeedsEnd :=
  heedsEnd_tableName.bind fun _ => (symbol _ _).bind fun _ => heedsEnd_tableElements.bind fun _ =>
    (symbol _ _).bind fun _ => heedsEnd_tableOptions.bind fun _ => pure _

theorem heedsEnd_eatTable : eatTable.HeedsEnd := (eat _).bind fun _ => ite (pure _) (eat _)

theorem heedsEnd_keyspaceDefinition : keyspaceDefinition.HeedsEnd :=
  (heedsEnd_identifier _).bind fun _ => (keyword _ _).bind fun _ => heedsEnd_properties.bind fun _ =>
    pure _

theorem heedsEnd_indexDefinition : indexDefinition.HeedsEnd := by
  have rest : ∀ name, (do
      Rule.keyword .ON "in CREATE INDEX"
      let table ← tableName
      Rule.symbol .leftParen "after table name"
      let column ← identifier "for indexed column"
      Rule.symbol .rightParen "after indexed column"
      return { name, table, column } : Rule IndexDefinition).HeedsEnd := fun _ =>
    (keyword _ _).bind fun _ => heedsEnd_tableName.bind fun _ => (symbol _ _).bind fun _ =>
      (heedsEnd_identifier _).bind fun _ => (symbol _ _).bind fun _ => pure _
  refine kind_bind fun _ => ?_
  split
  · exact (HeedsEnd.pure _).bind fun _ => rest _
  · exact (heedsEnd_indexName.map _).bind fun _ => rest _

theorem heedsEnd_create : create.HeedsEnd :=
  (eat _).bind fun _ => ite (heedsEnd_keyspaceDefinition.bind fun _ => pure _)
    (heedsEnd_eatTable.bind fun _ => ite (heedsEnd_tableDefinition.bind fun _ => pure _)
      ((eat _).bind fun _ => ite (heedsEnd_indexDefinition.bind fun _ => pure _) (expected _ _)))

theorem heedsEnd_drop : drop.HeedsEnd :=
  (eat _).bind fun _ => ite ((heedsEnd_identifier _).bind fun _ => pure _)
    (heedsEnd_eatTable.bind fun _ => ite (heedsEnd_tableName.bind fun _ => pure _)
      ((eat _).bind fun _ => ite (heedsEnd_indexName.bind fun _ => pure _) (expected _ _)))

theorem heedsEnd_tableChange : tableChange.HeedsEnd := by
  have renames : columnRenaming.HeedsEnd :=
    (heedsEnd_identifier _).bind fun _ => (keyword _ _).bind fun _ => (heedsEnd_identifier _).bind fun _ =>
      pure _
  refine (eat _).bind fun _ => ite ?_ ((eat _).bind fun _ => ite ?_ ((eat _).bind fun _ => ite ?_
    ((eat _).bind fun _ => ite ?_ ((eat _).bind fun _ => ite ?_ (expected _ _)))))
  · exact (heedsEnd_identifier _).bind fun _ => (keyword _ _).bind fun _ => heedsEnd_dataType.bind fun _ =>
      pure _
  · exact (heedsEnd_identifier _).bind fun _ => heedsEnd_dataType.bind fun _ => pure _
  · exact (heedsEnd_identifier _).bind fun _ => pure _
  · exact heedsEnd_properties.bind fun _ => pure _
  · exact (separated renames (by simp)).bind fun _ => pure _

theorem heedsEnd_alter : alter.HeedsEnd :=
  (eat _).bind fun _ => ite (heedsEnd_keyspaceDefinition.bind fun _ => pure _)
    (heedsEnd_eatTable.bind fun _ => ite
      (heedsEnd_tableName.bind fun _ => heedsEnd_tableChange.bind fun _ => pure _) (expected _ _))

/-! ### Permissions -/

theorem heedsEnd_permissionOnTable : permissionOnTable.HeedsEnd :=
  (accept _ _ fun _ => rfl).bind fun _ => (keyword _ _).bind fun _ => heedsEnd_tableName.bind fun _ =>
    pure _

theorem heedsEnd_grant : grant.HeedsEnd := by
  refine heedsEnd_permissionOnTable.bind fun _ => (keyword _ _).bind fun _ =>
    (heedsEnd_userName _).bind fun _ => (eat _).bind fun _ => ?_
  split
  · exact (keyword _ _).bind fun _ => (keyword _ _).bind fun _ => pure _
  · exact pure _

theorem heedsEnd_revocation : revocation.HeedsEnd :=
  heedsEnd_permissionOnTable.bind fun _ => (keyword _ _).bind fun _ => (heedsEnd_userName _).bind fun _ =>
    pure _

theorem heedsEnd_grantsOfUser : grantsOfUser.HeedsEnd :=
  (keyword _ _).bind fun _ => (keyword _ _).bind fun _ => heedsEnd_userName _

/-! ### Statements -/

/-- Every statement but a batch heeds the end of the input. -/
theorem heedsEnd_statementAfter {opening : TokenKind} {rule : Rule Statement}
    (found : statementAfter? opening = some rule) (single : opening ≠ .keyword .BEGIN) :
    rule.HeedsEnd := by
  unfold statementAfter? at found
  split at found
  case h_1 => exact Option.some.inj found ▸ heedsEnd_selection.map _
  case h_2 => exact Option.some.inj found ▸ heedsEnd_insertion.map _
  case h_3 => exact Option.some.inj found ▸ heedsEnd_update.map _
  case h_4 => exact Option.some.inj found ▸ heedsEnd_deletion.map _
  case h_5 => exact absurd rfl single
  case h_6 => exact Option.some.inj found ▸ (heedsEnd_identifier _).map _
  case h_7 => exact Option.some.inj found ▸ heedsEnd_tableName.map _
  case h_8 => exact Option.some.inj found ▸ heedsEnd_create
  case h_9 => exact Option.some.inj found ▸ heedsEnd_drop
  case h_10 => exact Option.some.inj found ▸ heedsEnd_alter
  case h_11 => exact Option.some.inj found ▸ heedsEnd_grant.map _
  case h_12 => exact Option.some.inj found ▸ heedsEnd_revocation.map _
  case h_13 => exact Option.some.inj found ▸ heedsEnd_grantsOfUser.map _
  case h_14 => exact absurd found (by simp)

/-- What a batch begins with heeds the end of the input. -/
theorem heedsEnd_batchMode : batchMode.HeedsEnd :=
  (eat _).bind fun _ => ite (pure _) ((eat _).bind fun _ => ite (pure _) (pure _))

end Cql.Grammar
