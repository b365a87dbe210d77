/-
The rules of the grammar report in order.

Nearly every rule reports about the current token.  Eight do not: they note a place and come back to it
after they have taken more, as a relation on tokens does when its two sides turn out to differ in length.
What such a rule takes in between is quiet, or is reported before the rule itself has something to say
about a later token; and the one report in a batch that is about the token just taken stands between two
items.

* `Grammar.orderedAt_tokenRelation`, `Grammar.ordered_plainAssignment`,
  `Grammar.orderedAt_signedChange`, `Grammar.orderedAt_unsignedChange`, `Grammar.ordered_selfAssignment`,
  `Grammar.ordered_propertyMap`, `Grammar.ordered_countArgument`, `Grammar.ordered_limitClause` — the
  rules that come back to a place;
* `Grammar.ordered_insertion`, `Grammar.ordered_update`, `Grammar.ordered_deletion` — what a batch holds;
* `Grammar.ordered_query` — **a parse reports from the left to the right**.
-/
import Cql.Proofs.ReportOrder

namespace Cql

namespace Rule.OrderedAt

variable {α β : Type} {low : Nat} {state : State}

/-- A quiet rule moves the cursor on, and places noted before it can still be reported. -/
theorem bind_noted {rule : Rule α} {next : α → Rule β} (quiet : rule.Quiet) (ordered : rule.Ordered)
    (h : low ≤ state.stream.position)
    (second : ∀ a state', state.stream.position ≤ state'.stream.position →
      (next a).OrderedAt low state') : (rule >>= next).OrderedAt low state :=
  .bind_quiet quiet (ordered.at_le h) fun a _ => second a _ (rule.run_takes state).position_le

theorem ite {condition : Prop} [Decidable condition] {yes no : Rule α}
    (first : yes.OrderedAt low state) (second : no.OrderedAt low state) :
    (if condition then yes else no).OrderedAt low state := by
  split
  · exact first
  · exact second

end Rule.OrderedAt

theorem Rule.Reads.takes {α : Type} {rule : Rule α} {state after : State} {a : α}
    (reads : rule.Reads state a after) : state.Takes after := by
  have h := rule.run_takes state
  rwa [(Rule.reads_iff.1 reads).2.1] at h

namespace Grammar

open Rule (OrderedAt Ordered)
open Rule.Ordered

/-! ### Names and values -/

theorem ordered_identifier (context : String) : (identifier context).Ordered := accept _ _ _

theorem ordered_identifiers (context : String) : (identifiers context).Ordered :=
  commaSeparated (ordered_identifier _)

theorem ordered_tableName : tableName.Ordered :=
  (ordered_identifier _).bind fun _ => (eatMark _).bind fun _ =>
    ite ((ordered_identifier _).bind fun _ => pure _) (pure _)

theorem ordered_userName (context : String) : (userName context).Ordered := accept _ _ _

theorem ordered_indexName : indexName.Ordered := accept _ _ _

theorem ordered_markerOr (constant? : TokenKind → Option Term) (what context : String) :
    (markerOr constant? what context).Ordered := by
  refine marker.bind fun ordinal => ?_
  cases ordinal with
  | none => exact accept _ _ _
  | some ordinal => exact pure _

theorem ordered_scalar (context : String) : (scalar context).Ordered := ordered_markerOr _ _ _

section

variable {value : String → Rule Value} (h : ∀ context, (value context).Ordered)
include h

theorem ordered_listLiteral : (listLiteral value).Ordered :=
  (symbol _ _).bind fun _ => (eatMark _).bind fun _ => ite (pure _)
    ((commaSeparated (h _)).bind fun _ => (symbol _ _).bind fun _ => pure _)

theorem ordered_mapEntry : (mapEntry value).Ordered :=
  (h _).bind fun _ => (symbol _ _).bind fun _ => (h _).bind fun _ => pure _

theorem ordered_bracedLiteral : (bracedLiteral value).Ordered := by
  refine (symbol _ _).bind fun _ => (eatMark _).bind fun _ => ite (pure _) ?_
  refine (h _).bind fun _ => (eatMark _).bind fun _ => ite ?_ ?_
  · exact (h _).bind fun _ => (following (ordered_mapEntry h) _).bind fun _ =>
      (symbol _ _).bind fun _ => pure _
  · exact (following (h _) _).bind fun _ => (symbol _ _).bind fun _ => pure _

end

theorem ordered_scalarOr {list braced : Rule Value} (context : String) (first : list.Ordered)
    (second : braced.Ordered) : (scalarOr list braced context).Ordered := by
  refine kind.bind fun current => ?_
  split
  · exact first
  · exact second
  · exact (ordered_scalar _).bind fun _ => pure _

theorem ordered_value (context : String) : (value context).Ordered := by
  have within : ∀ levels context, (valueWithin levels context).Ordered := by
    intro levels
    induction levels with
    | zero => exact fun context => ordered_scalarOr context tooDeep tooDeep
    | succ levels ih =>
      exact fun context => ordered_scalarOr context (ordered_listLiteral ih) (ordered_bracedLiteral ih)
  exact within maxNesting context

theorem ordered_values (context : String) : (values context).Ordered :=
  commaSeparated (ordered_value _)

theorem ordered_mapLiteral : (mapLiteral value).Ordered :=
  (symbol _ _).bind fun _ => (eatMark _).bind fun _ => ite (pure _)
    ((commaSeparated (ordered_mapEntry ordered_value)).bind fun _ => (symbol _ _).bind fun _ => pure _)

/-! ### Relations -/

theorem ordered_comparison : comparison.Ordered := accept _ _ _

/-- The number of arguments is checked when all of them are read, which is quiet. -/
theorem orderedAt_tokenRelation {first : Nat} {state : State} (taken : first < state.stream.position) :
    (tokenRelation first).OrderedAt first state := by
  refine .bind_noted (.symbol _ _) (symbol _ _) (by omega) fun _ s₁ _ => ?_
  refine .bind_noted (quiet_identifiers _) (ordered_identifiers _) (by omega) fun columns s₂ _ => ?_
  refine .bind_noted (.symbol _ _) (symbol _ _) (by omega) fun _ s₃ _ => ?_
  refine .bind_noted quiet_comparison ordered_comparison (by omega) fun sign s₄ _ => ?_
  refine .bind_noted (.eat _) (eat _) (by omega) fun _ s₅ _ => .ite ?_ ?_
  · refine .bind_noted (.symbol _ _) (symbol _ _) (by omega) fun _ s₆ _ => ?_
    refine .bind_noted (quiet_values _) (ordered_values _) (by omega) fun arguments s₇ _ => ?_
    refine .bind_noted (.symbol _ _) (symbol _ _) (by omega) fun _ s₈ _ => .ite ?_ ?_
    · exact .pure _ (by omega)
    · refine .since_bind (.bind (.report ⟨Nat.le_refl _, ?_, ?_⟩) fun _ _ => (pure _).at_le (Nat.le_refl _))
      · show first ≤ s₈.stream.position - 1
        omega
      · show s₈.stream.position - 1 ≤ s₈.stream.position
        omega
  · exact ((ordered_value _).bind fun _ => pure _).at_le (by omega)

theorem ordered_relation : relation.Ordered := by
  intro state
  refine .position_bind ?_
  refine .bind_quiet (.eat _) (eat _ state) fun eaten found => ?_
  cases eaten with
  | true =>
    have current : state.kind = .keyword .TOKEN := by
      rw [Rule.eat, Rule.run_eatKind] at found
      split at found
      · assumption
      · simp at found
    rw [Rule.eat, Rule.run_eatKind, if_pos current]
    refine orderedAt_tokenRelation ?_
    show state.stream.position < state.advance.stream.position
    rw [State.position_advance_of_kind (by simp [current])]
    omega
  | false =>
    refine Ordered.at_le ?_ ((Rule.eat _).run_takes state).position_le
    refine (ordered_identifier _).bind fun _ => (eat _).bind fun _ => ite ?_ ?_
    · exact (symbol _ _).bind fun _ => (ordered_values _).bind fun _ => (symbol _ _).bind fun _ => pure _
    · exact ordered_comparison.bind fun _ => (ordered_value _).bind fun _ => pure _

theorem ordered_relations : relations.Ordered := gather _ _ ordered_relation

/-! ### SELECT -/

theorem ordered_atFunction (name : Keyword) : (atFunction name).Ordered :=
  kind.bind fun _ => nextKind.bind fun _ => pure _

theorem ordered_integerText (context : String) : (integerText context).Ordered := accept _ _ _

/-- A problem with a token that is found out when it has been taken. -/
theorem Place.between_token {position : Nat} {state : State} (h : position ≤ state.stream.position) :
    (Place.token position).Between position state.stream.position :=
  ⟨Nat.le_refl _, Nat.le_refl _, h⟩

theorem ordered_countArgument : countArgument.Ordered := by
  refine (eatMark _).bind fun _ => ite (pure _) fun state => .here_bind ?_
  refine .bind_noted (quiet_integerText _) (ordered_integerText _) (Nat.le_refl _) fun text state' h => ?_
  exact .ite (.report (Place.between_token h)) (.pure _ h)

theorem ordered_functionArgument : functionArgument.Ordered :=
  (symbol _ _).bind fun _ => (ordered_identifier _).bind fun _ => (symbol _ _).bind fun _ => pure _

theorem ordered_selector : selector.Ordered := by
  refine (ordered_atFunction _).bind fun _ => ite ?_ ?_
  · exact advance.bind fun _ => ordered_functionArgument.bind fun _ => pure _
  refine (ordered_atFunction _).bind fun _ => ite ?_ ?_
  · exact advance.bind fun _ => ordered_functionArgument.bind fun _ => pure _
  · exact (ordered_identifier _).bind fun _ => pure _

theorem ordered_projection : projection.Ordered := by
  refine (ordered_atFunction _).bind fun _ => ite ?_ ?_
  · exact advance.bind fun _ => (symbol _ _).bind fun _ => ordered_countArgument.bind fun _ =>
      (symbol _ _).bind fun _ => pure _
  · exact (eatMark _).bind fun _ => ite (pure _) ((commaSeparated ordered_selector).bind fun _ => pure _)

theorem ordered_direction : direction.Ordered :=
  (eat _).bind fun _ => ite (pure _) ((eat _).bind fun _ => pure _)

theorem ordered_orderClause : orderClause.Ordered := by
  have ordering : ordering.Ordered :=
    (ordered_identifier _).bind fun _ => ordered_direction.bind fun _ => pure _
  exact (eat _).bind fun _ => ite
    ((keyword _ _).bind fun _ => (commaSeparated ordering).bind fun _ => pure _) (pure _)

theorem ordered_limitClause : limitClause.Ordered := by
  refine (eat _).bind fun _ => ite (fun state => .here_bind ?_) (pure _)
  refine .bind_noted (quiet_integerText _) (ordered_integerText _) (Nat.le_refl _) fun text state' h => ?_
  cases Integer.bounded? 32 text with
  | some limit => exact .pure _ h
  | none =>
    exact .bind (.report (Place.between_token h)) fun _ _ => (pure _).at_le (Nat.le_refl _)

theorem ordered_filteringClause : filteringClause.Ordered :=
  (eat _).bind fun _ => ite ((keyword _ _).bind fun _ => pure _) (pure _)

theorem ordered_selection : selection.Ordered := by
  refine ordered_projection.bind fun _ => (keyword _ _).bind fun _ => ordered_tableName.bind fun _ =>
    (eat _).bind fun _ => ?_
  have clauses : ∀ {β : Type} (result : ColumnOrder → Int → Bool → β), (do
      let orderings ← orderClause
      let limit ← limitClause
      let allowFiltering ← filteringClause
      return result orderings limit allowFiltering : Rule β).Ordered := fun _ =>
    ordered_orderClause.bind fun _ => ordered_limitClause.bind fun _ =>
      ordered_filteringClause.bind fun _ => pure _
  split
  · exact ordered_relations.bind fun _ => clauses _
  · exact (Ordered.pure _).bind fun _ => clauses _

/-! ### INSERT and DELETE -/

theorem ordered_objectives : objectives.Ordered := by
  have objective : ∀ objective, (objectiveValue objective).Ordered := fun objective =>
    (ordered_markerOr _ _ _).bind fun _ => kind.bind fun _ => nextKind.bind fun _ =>
      ite (advance.bind fun _ => pure _) (pure _)
  have settings : (Rule.many TokenKind.isObjective (fun _ => true) fun objective => do
      return (objective.kind, ← objectiveValue objective.kind)).Ordered :=
    many fun lexeme => (objective lexeme.kind).bind fun _ => pure _
  exact kind.bind fun _ => ite ((expected _ _).bind fun _ => settings.bind fun _ => pure _)
    (settings.bind fun _ => pure _)

theorem ordered_usingClause : usingClause.Ordered := (eat _).bind fun _ => ite ordered_objectives (pure _)

theorem ordered_insertion : insertion.Ordered :=
  (keyword _ _).bind fun _ => ordered_tableName.bind fun _ => (symbol _ _).bind fun _ =>
    (twoOrMore (ordered_identifier _) _).bind fun _ => (symbol _ _).bind fun _ =>
    (keyword _ _).bind fun _ => (symbol _ _).bind fun _ =>
    (twoOrMore (ordered_value _) _).bind fun _ => (symbol _ _).bind fun _ =>
    ordered_usingClause.bind fun _ => pure _

theorem ordered_elementKey : elementKey.Ordered :=
  (ordered_value _).bind fun _ => (symbol _ _).bind fun _ => pure _

theorem ordered_deletionTarget : deletionTarget.Ordered :=
  (ordered_identifier _).bind fun _ => (eatMark _).bind fun _ =>
    ite (ordered_elementKey.bind fun _ => pure _) (pure _)

theorem ordered_timestampClause : timestampClause.Ordered :=
  (eat _).bind fun _ => ite
    ((keyword _ _).bind fun _ => (ordered_markerOr _ _ _).bind fun _ => pure _) (pure _)

theorem ordered_deletion : deletion.Ordered := by
  have rest : ∀ targets, (do
      Rule.keyword .FROM "in DELETE"
      let table ← tableName
      let attributes ← timestampClause
      Rule.keyword .WHERE "in DELETE"
      let relations ← relations
      return { table, targets, attributes, relations } : Rule Deletion).Ordered := fun _ =>
    (keyword _ _).bind fun _ => ordered_tableName.bind fun _ => ordered_timestampClause.bind fun _ =>
      (keyword _ _).bind fun _ => ordered_relations.bind fun _ => pure _
  refine kind.bind fun _ => ?_
  split
  · exact (Ordered.pure _).bind fun _ => rest _
  · exact (commaSeparated ordered_deletionTarget).bind fun _ => rest _

/-! ### UPDATE -/

theorem ordered_elementAssignment : elementAssignment.Ordered :=
  ordered_elementKey.bind fun _ => (symbol _ _).bind fun _ => (ordered_value _).bind fun _ => pure _

theorem ordered_plainAssignment (column : Identifier) : (plainAssignment column).Ordered := by
  refine (ordered_value _).bind fun _ => (eatMark _).bind fun _ => ite (fun state => .here_bind ?_) (pure _)
  refine .bind_noted (quiet_identifier _) (ordered_identifier _) (Nat.le_refl _) fun other state' h => ?_
  split
  · exact .bind (.report (Place.between_token h)) fun _ _ => (pure _).at_le (Nat.le_refl _)
  · exact .pure _ h

/-- A check that takes nothing and can only complain about the token with number `position`. -/
structure ChecksAt (position : Nat) (checkColumns : Rule Unit) : Prop where
  stays : ∀ state, (checkColumns.run state).state = state
  ordered : ∀ state, Report.InOrder position position (checkColumns.run state).reports

theorem checksAt_ite (condition : Prop) [Decidable condition] (problem : Problem) (position : Nat) :
    ChecksAt position
      (if condition then Pure.pure () else Rule.report problem (.token position)) := by
  split
  · exact ⟨fun _ => rfl, fun _ => .nil (Nat.le_refl _)⟩
  · exact ⟨fun _ => rfl, fun _ => .singleton ⟨Nat.le_refl _, Nat.le_refl _, Nat.le_refl _⟩⟩

section

variable {checkColumns : Rule Unit} {position : Nat} {state : State}
  (checks : ChecksAt position checkColumns)
include checks

/-- After the check, later tokens can still be reported. -/
theorem ChecksAt.bind {α : Type} {next : Rule α} {mid : Nat} (h : position ≤ mid)
    (behind : mid ≤ state.stream.position) (rest : next.OrderedAt mid state) :
    (checkColumns >>= fun _ => next).OrderedAt position state := by
  have first := checks.ordered state
  have upto : Report.InOrder position mid (checkColumns.run state).reports := first.mono (Nat.le_refl _) h
  refine .bind_upto ?_ (fun _ _ => upto) fun _ _ => ?_
  · unfold OrderedAt
    rw [checks.stays]
    exact first.mono (Nat.le_refl _) (Nat.le_trans h behind)
  · rw [checks.stays]
    exact rest

/-- The columns are checked when the operand has been read, and only then is the operand refused. -/
theorem orderedAt_signedChange (sign : Sign) (h : position ≤ state.stream.position) :
    (signedChange sign checkColumns).OrderedAt position state := by
  refine .bind_noted .advance advance h fun _ s₁ h₁ => .here_bind ?_
  refine .bind_noted (quiet_value _) (ordered_value _) (by omega) fun operand s₂ h₂ => ?_
  have behind : position ≤ s₁.stream.position := by omega
  refine checks.bind behind h₂ ?_
  cases Operation.delta sign operand with
  | ok operation => exact .pure _ h₂
  | error fault => exact .fail (Place.between_token h₂)

theorem orderedAt_unsignedChange (digits : String) (h : position ≤ state.stream.position) :
    (unsignedChange digits checkColumns).OrderedAt position state := by
  refine .here_bind (.bind_noted .advance advance h fun _ s₁ h₁ => ?_)
  exact checks.bind h h₁ (.ite (.pure _ h₁) (.abort (Place.between_token h₁)))

end

theorem ordered_selfAssignment (column : Identifier) : (selfAssignment column).Ordered := by
  refine fun state => .here_bind ?_
  refine .bind_noted (quiet_identifier _) (ordered_identifier _) (Nat.le_refl _) fun other s₁ h₁ => ?_
  have checks := checksAt_ite (other == column) .startsFromOther state.stream.position
  refine .kind_bind ?_
  split
  · exact orderedAt_signedChange checks _ h₁
  · exact orderedAt_signedChange checks _ h₁
  · exact orderedAt_unsignedChange checks _ h₁
  · refine .bind_noted (quiet_scalar _) (ordered_scalar _) h₁ fun amount s₂ h₂ => ?_
    exact checks.bind (Nat.le_refl _) (Nat.le_trans h₁ h₂) (.pure _ (Nat.le_trans h₁ h₂))
  · exact (expected _ _).at_le h₁

theorem ordered_assignment : assignment.Ordered := by
  refine (ordered_identifier _).bind fun column => (eatMark _).bind fun _ => ite ?_ ?_
  · exact ordered_elementAssignment.bind fun _ => pure _
  refine (symbol _ _).bind fun _ => kind.bind fun _ => ite ?_ ?_
  · exact (ordered_selfAssignment column).bind fun _ => pure _
  · exact (ordered_plainAssignment column).bind fun _ => pure _

theorem ordered_update : update.Ordered :=
  ordered_tableName.bind fun _ => ordered_usingClause.bind fun _ => (keyword _ _).bind fun _ =>
    (gather _ _ (ordered_assignment.map some)).bind fun _ => (keyword _ _).bind fun _ =>
    ordered_relations.bind fun _ => pure _

/-! ### Batches -/

theorem ordered_modificationAfter {opening : TokenKind} {rule : Rule Modification}
    (found : modificationAfter? opening = some rule) : rule.Ordered := by
  unfold modificationAfter? at found
  split at found
  · obtain rfl := Option.some.inj found
    exact ordered_insertion.map _
  · obtain rfl := Option.some.inj found
    exact ordered_update.map _
  · obtain rfl := Option.some.inj found
    exact ordered_deletion.map _
  · exact absurd found (by simp)

theorem ordered_skipModification : skipModification.Ordered := by
  refine kind.bind fun _ => ?_
  split
  · exact advance.bind fun _ => skipUntil _
  · exact skipUntil _

/-- What cannot stand in a batch is reported when it has been taken, before anything else is. -/
theorem orderedAt_batchItem {opening : TokenKind} {low : Nat} {state : State}
    (h : low < state.stream.position) : (batchItem opening).OrderedAt low state := by
  unfold batchItem
  split
  · rename_i rule found
    refine Ordered.at_le ?_ (Nat.le_of_lt h)
    refine (attempt (ordered_modificationAfter found)).bind fun result => ?_
    cases result with
    | some modification => exact (eatMark _).bind fun _ => pure _
    | none => exact ordered_skipModification.bind fun _ => pure _
  · refine .position_bind (.bind (.report ?_) fun _ _ => ?_)
    · exact ⟨Nat.le_sub_one_of_lt h, Nat.le_refl _, Nat.sub_le _ _⟩
    · exact ((skipUntil _).bind fun _ => pure _).at_le (Nat.le_refl _)

theorem ordered_modifications : modifications.Ordered := by
  refine Ordered.bind (fun state => .many (fun state token rest ahead _ => ?_) (Nat.le_refl _))
    fun _ => pure _
  refine orderedAt_batchItem ?_
  rw [State.position_advance ahead]
  omega

theorem ordered_batchMode : batchMode.Ordered :=
  (eat _).bind fun _ => ite (pure _) ((eat _).bind fun _ => ite (pure _) (pure _))

theorem ordered_batch : batch.Ordered := by
  refine ordered_batchMode.bind fun _ => (keyword _ _).bind fun _ => ordered_usingClause.bind fun _ =>
    ordered_modifications.bind fun _ => kind.bind fun _ => ?_
  split
  · exact (reportExpected _ _).bind fun _ => (keyword _ _).bind fun _ => (keyword _ _).bind fun _ => pure _
  · exact (keyword _ _).bind fun _ => (keyword _ _).bind fun _ => pure _

/-! ### Statements about schemas -/

theorem ordered_typeOf {element : Rule DataType} (h : element.Ordered) : (typeOf element).Ordered := by
  refine kind.bind fun current => ?_
  split
  · exact advance.bind fun _ => (symbol _ _).bind fun _ => h.bind fun _ => (symbol _ _).bind fun _ =>
      h.bind fun _ => (symbol _ _).bind fun _ => pure _
  · exact advance.bind fun _ => (symbol _ _).bind fun _ => h.bind fun _ => (symbol _ _).bind fun _ => pure _
  · exact advance.bind fun _ => (symbol _ _).bind fun _ => h.bind fun _ => (symbol _ _).bind fun _ => pure _
  · exact advance.bind fun _ => pure _
  · exact (accept _ _ _).map _

theorem ordered_dataType : dataType.Ordered := by
  have within : ∀ levels, (typeWithin levels).Ordered := by
    intro levels
    induction levels with
    | zero => exact ordered_typeOf tooDeep
    | succ levels ih => exact ordered_typeOf ih
  exact within maxNesting

/-- A map literal that is read takes its opening brace at least. -/
theorem position_lt_of_mapLiteral {state : State} {entries : List (Value × Value)}
    (h : ((mapLiteral value).run state).result = .ok entries) :
    state.stream.position < ((mapLiteral value).run state).state.stream.position := by
  have reads : (mapLiteral value).Reads state entries ((mapLiteral value).run state).state :=
    Rule.reads_iff.2 ⟨h, rfl, (quiet_mapLiteral quiet_value).run h⟩
  obtain ⟨_, mid, brace, rest⟩ := Rule.reads_bind.1 reads
  obtain ⟨current, rfl⟩ := Rule.reads_ofKind.1 brace
  have inside : state.kind ≠ .endOfInput := by simp [current]
  have taken := State.position_advance_of_kind inside
  have further := rest.takes.position_le
  omega

/-- What is wrong with a property map is found out when all of it is read, which is quiet. -/
theorem ordered_propertyMap : propertyMap.Ordered := by
  refine fun state => .position_bind ?_
  refine .bind_quiet (quiet_mapLiteral quiet_value) (ordered_mapLiteral _) fun entries found => ?_
  have taken := position_lt_of_mapLiteral found
  dsimp only
  split
  · refine .since_bind (.bind (.report ⟨Nat.le_refl _, ?_, Nat.sub_le _ _⟩) fun _ _ =>
      (pure _).at_le (Nat.le_refl _))
    exact Nat.le_sub_one_of_lt taken
  · exact .pure _ (Nat.le_of_lt taken)

theorem ordered_property : property.Ordered := by
  refine (ordered_identifier _).bind fun name => (symbol _ _).bind fun _ => kind.bind fun current => ?_
  split
  · exact ordered_propertyMap.bind fun _ => pure _
  · refine fun state => .here_bind (.bind (.report (between_here state)) fun _ _ => ?_)
    exact (advance.bind fun _ => pure _).at_le (Nat.le_refl _)
  · exact (accept _ _ _).bind fun _ => pure _

theorem ordered_properties : properties.Ordered := (separated ordered_property _).bind fun _ => pure _

theorem ordered_keyComponent : keyComponent.Ordered :=
  (eatMark _).bind fun _ => ite
    ((ordered_identifiers _).bind fun _ => (symbol _ _).bind fun _ => pure _)
    ((ordered_identifier _).bind fun _ => pure _)

theorem ordered_primaryKey : primaryKey.Ordered :=
  (keyword _ _).bind fun _ => (symbol _ _).bind fun _ => ordered_keyComponent.bind fun _ =>
    (closed (salvagedAfterComma (ordered_identifier _)) (symbol _ _)).bind fun _ => pure _

theorem ordered_columnDefinition : columnDefinition.Ordered :=
  (ordered_identifier _).bind fun _ => ordered_dataType.bind fun _ => (eat _).bind fun _ =>
    ite ((keyword _ _).bind fun _ => pure _) (pure _)

theorem ordered_tableElement : tableElement.Ordered :=
  restoring _ ((eat _).bind fun _ => ite ordered_primaryKey ordered_columnDefinition)

theorem ordered_tableElements : tableElements.Ordered := by
  refine ordered_tableElement.bind fun _ => (following ?_ _).bind fun _ => pure _
  exact kind.bind fun _ => ite (pure _) ordered_tableElement

theorem ordered_clusteringOrder : clusteringOrder.Ordered := by
  have entry : clusteringEntry.Ordered :=
    (ordered_identifier _).bind fun _ => (accept _ _ _).bind fun _ => pure _
  exact (keyword _ _).bind fun _ => (symbol _ _).bind fun _ => closed (salvaged entry) (symbol _ _)

theorem ordered_tableOption : tableOption.Ordered := by
  refine kind.bind fun _ => nextKind.bind fun _ => ite ?_ (ite ?_ ?_)
  · exact advance.bind fun _ => advance.bind fun _ => pure _
  · exact advance.bind fun _ => advance.bind fun _ => ordered_clusteringOrder
  · exact ordered_property.bind fun _ => pure _

theorem ordered_tableOptions : tableOptions.Ordered :=
  (eat _).bind fun _ => ite
    ((separated (restoring _ ordered_tableOption) _).bind fun _ => pure _) (pure _)

theorem ordered_tableDefinition : tableDefinition.Ordered :=
  ordered_tableName.bind fun _ => (symbol _ _).bind fun _ => ordered_tableElements.bind fun _ =>
    (symbol _ _).bind fun _ => ordered_tableOptions.bind fun _ => pure _

theorem ordered_eatTable : eatTable.Ordered := (eat _).bind fun _ => ite (pure _) (eat _)

theorem ordered_keyspaceDefinition : keyspaceDefinition.Ordered :=
  (ordered_identifier _).bind fun _ => (keyword _ _).bind fun _ => ordered_properties.bind fun _ => pure _

theorem ordered_indexDefinition : indexDefinition.Ordered := by
  have rest : ∀ name, (do
      Rule.keyword .ON "in CREATE INDEX"
      let table ← tableName
      Rule.symbol .leftParen "after table name"
      let column ← identifier "for indexed column"
      Rule.symbol .rightParen "after indexed column"
      return { name, table, column } : Rule IndexDefinition).Ordered := fun _ =>
    (keyword _ _).bind fun _ => ordered_tableName.bind fun _ => (symbol _ _).bind fun _ =>
      (ordered_identifier _).bind fun _ => (symbol _ _).bind fun _ => pure _
  refine kind.bind fun _ => ?_
  split
  · exact (Ordered.pure _).bind fun _ => rest _
  · exact (ordered_indexName.map _).bind fun _ => rest _

theorem ordered_create : create.Ordered :=
  (eat _).bind fun _ => ite (ordered_keyspaceDefinition.bind fun _ => pure _)
    (ordered_eatTable.bind fun _ => ite (ordered_tableDefinition.bind fun _ => pure _)
      ((eat _).bind fun _ => ite (ordered_indexDefinition.bind fun _ => pure _) (expected _ _)))

theorem ordered_drop : drop.Ordered :=
  (eat _).bind fun _ => ite ((ordered_identifier _).bind fun _ => pure _)
    (ordered_eatTable.bind fun _ => ite (ordered_tableName.bind fun _ => pure _)
      ((eat _).bind fun _ => ite (ordered_indexName.bind fun _ => pure _) (expected _ _)))

theorem ordered_tableChange : tableChange.Ordered := by
  have renames : columnRenaming.Ordered :=
    (ordered_identifier _).bind fun _ => (keyword _ _).bind fun _ => (ordered_identifier _).bind fun _ =>
      pure _
  refine (eat _).bind fun _ => ite ?_ ((eat _).bind fun _ => ite ?_ ((eat _).bind fun _ => ite ?_
    ((eat _).bind fun _ => ite ?_ ((eat _).bind fun _ => ite ?_ (expected _ _)))))
  · exact (ordered_identifier _).bind fun _ => (keyword _ _).bind fun _ => ordered_dataType.bind fun _ =>
      pure _
  · exact (ordered_identifier _).bind fun _ => ordered_dataType.bind fun _ => pure _
  · exact (ordered_identifier _).bind fun _ => pure _
  · exact ordered_properties.bind fun _ => pure _
  · exact (separated renames _).bind fun _ => pure _

theorem ordered_alter : alter.Ordered :=
  (eat _).bind fun _ => ite (ordered_keyspaceDefinition.bind fun _ => pure _)
    (ordered_eatTable.bind fun _ => ite
      (ordered_tableName.bind fun _ => ordered_tableChange.bind fun _ => pure _) (expected _ _))

/-! ### Permissions -/

theorem ordered_permissionOnTable : permissionOnTable.Ordered :=
  (accept _ _ _).bind fun _ => (keyword _ _).bind fun _ => ordered_tableName.bind fun _ => pure _

theorem ordered_grant : grant.Ordered := by
  refine ordered_permissionOnTable.bind fun _ => (keyword _ _).bind fun _ =>
    (ordered_userName _).bind fun _ => (eat _).bind fun _ => ?_
  split
  · exact (keyword _ _).bind fun _ => (keyword _ _).bind fun _ => pure _
  · exact pure _

theorem ordered_revocation : revocation.Ordered :=
  ordered_permissionOnTable.bind fun _ => (keyword _ _).bind fun _ => (ordered_userName _).bind fun _ =>
    pure _

theorem ordered_grantsOfUser : grantsOfUser.Ordered :=
  (keyword _ _).bind fun _ => (keyword _ _).bind fun _ => ordered_userName _

/-! ### Statements and queries -/

theorem ordered_statementAfter {opening : TokenKind} {rule : Rule Statement}
    (found : statementAfter? opening = some rule) : rule.Ordered := by
  unfold statementAfter? at found
  split at found
  case h_1 => exact Option.some.inj found ▸ ordered_selection.map _
  case h_2 => exact Option.some.inj found ▸ ordered_insertion.map _
  case h_3 => exact Option.some.inj found ▸ ordered_update.map _
  case h_4 => exact Option.some.inj found ▸ ordered_deletion.map _
  case h_5 => exact Option.some.inj found ▸ ordered_batch.map _
  case h_6 => exact Option.some.inj found ▸ (ordered_identifier _).map _
  case h_7 => exact Option.some.inj found ▸ ordered_tableName.map _
  case h_8 => exact Option.some.inj found ▸ ordered_create
  case h_9 => exact Option.some.inj found ▸ ordered_drop
  case h_10 => exact Option.some.inj found ▸ ordered_alter
  case h_11 => exact Option.some.inj found ▸ ordered_grant.map _
  case h_12 => exact Option.some.inj found ▸ ordered_revocation.map _
  case h_13 => exact Option.some.inj found ▸ ordered_grantsOfUser.map _
  case h_14 => exact absurd found (by simp)

theorem ordered_statement : statement.Ordered := by
  refine kind.bind fun current => ?_
  split
  · rename_i rest found
    exact advance.bind fun _ => ordered_statementAfter found
  · exact expected _ _

/-- A parse reports from the left to the right. -/
theorem ordered_query : query.Ordered := by
  have since : ∀ first, (Rule.since first).Ordered := fun _ => Ordered.position.bind fun _ => pure _
  refine semicolons.bind fun _ => Ordered.position.bind fun first => ordered_statement.bind fun _ =>
    (since first).bind fun _ => semicolons.bind fun _ => kind.bind fun _ => ?_
  split
  · refine kind.bind fun found state => .here_bind (.bind (.report (between_here state)) fun _ _ => ?_)
    exact (pure _).at_le (Nat.le_refl _)
  · exact pure _

end Grammar

end Cql
