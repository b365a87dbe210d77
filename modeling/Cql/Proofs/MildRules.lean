/-
Rules that never end the parse.

Only one rule ends the parse, the one for a change without a sign, and a report that a sign is missing is
made there and nowhere else.  Every other rule is mild: whatever it reports can be recovered from.

* `Problem.isMild` — the problems that can be recovered from;
* `Rule.Mild` — a rule that is put together from forms that do not end the parse;
  `Rule.Mild.run` is what comes of it;
* `Grammar.mild_selection`, `Grammar.mild_insertion`, `Grammar.mild_deletion`, `Grammar.mild_create` and
  so on — all statements but UPDATE and batches are read by mild rules.
-/
import Cql.Grammar.Statement

namespace Cql

/-- A problem that a rule of the grammar can report and go on. -/
def Problem.isMild : Problem → Bool
  | unexplained | missingMinus _ => false
  | _ => true

/-- A reply that does not end the parse. -/
structure Reply.Mild {α : Type} (reply : Reply α) : Prop where
  goesOn : reply.result ≠ .error .fatal
  reports : ∀ report ∈ reply.reports, report.problem.isMild = true

namespace Run

variable {α β : Type}

/-- Whatever the state, the run does not end the parse. -/
def Mild (run : Run α) : Prop := ∀ state, (run state).Mild

namespace Mild

theorem done (a : α) : Mild (Run.done a) := fun _ => ⟨by simp [Run.done], by simp [Run.done]⟩

theorem andThen {run : Run α} {next : α → Run β} (first : Mild run) (second : ∀ a, Mild (next a)) :
    Mild (Run.andThen run next) := by
  intro state
  obtain ⟨goesOn, reports⟩ := first state
  unfold Run.andThen
  cases result : (run state).result with
  | ok a =>
    simp only [result]
    obtain ⟨goesOn', reports'⟩ := second a (run state).state
    refine ⟨goesOn', fun report mem => ?_⟩
    rcases List.mem_append.1 mem with mem | mem
    · exact reports report mem
    · exact reports' report mem
  | error halt =>
    simp only [result]
    exact ⟨by simpa [result] using goesOn, reports⟩

theorem attempt {run : Run α} (first : Mild run) : Mild (Run.attempt run) := by
  intro state
  obtain ⟨goesOn, reports⟩ := first state
  unfold Run.attempt
  simp only
  split
  · exact ⟨by simp, reports⟩
  · exact ⟨by simp, reports⟩
  · rename_i fatal
    exact absurd fatal goesOn

theorem manyUpTo {opens : TokenKind → Bool} {goesOn : α → Bool} {item : Lexeme → Run α}
    (items : ∀ lexeme, Mild (item lexeme)) (bound : Nat) :
    Mild (Run.manyUpTo opens goesOn item bound) := by
  induction bound with
  | zero => exact done []
  | succ bound ih =>
    intro state
    unfold Run.manyUpTo
    split
    · exact done [] state
    rename_i token rest ahead
    split
    · obtain ⟨ends, reports⟩ := items token.toLexeme state.advance
      cases result : (item token.toLexeme state.advance).result with
      | error halt =>
        simp only [result]
        exact ⟨by simpa [result] using ends, reports⟩
      | ok a =>
        simp only [result]
        obtain ⟨ends', reports'⟩ := ih (item token.toLexeme state.advance).state
        split
        · refine ⟨fun fatal => ends' ?_, fun report mem => ?_⟩
          · cases others : (Run.manyUpTo opens goesOn item bound
                (item token.toLexeme state.advance).state).result with
            | ok as => simp [others, Except.map] at fatal
            | error halt => simpa [others, Except.map] using fatal
          · rcases List.mem_append.1 mem with mem | mem
            · exact reports report mem
            · exact reports' report mem
        · exact ⟨by simp, reports⟩
    · exact done [] state

theorem many {opens : TokenKind → Bool} {goesOn : α → Bool} {item : Lexeme → Run α}
    (items : ∀ lexeme, Mild (item lexeme)) : Mild (Run.many opens goesOn item) :=
  fun state => manyUpTo items _ state

theorem skipUntil (stops : TokenKind → Bool) : Mild (Run.skipUntil stops) :=
  andThen (many fun _ => done ()) fun _ => done ()

theorem settle (parts : List (Option (Option α))) : Mild (Run.settle parts) := by
  intro state
  unfold Run.settle
  split
  · exact ⟨by simp [Run.halt], by simp [Run.halt]⟩
  · exact done _ state

theorem gather {separator : TokenKind} {stops : TokenKind → Bool} {item : Run (Option α)}
    (reads : Mild item) : Mild (Run.gather separator stops item) := by
  have next : Mild (Run.part (Run.skipUntil fun kind => kind = separator || stops kind) item) := by
    refine andThen (attempt reads) fun result => ?_
    match result with
    | some a => exact done (some a)
    | none => exact andThen (skipUntil _) fun _ => done none
  exact andThen next fun _ => andThen (many fun _ => next) fun _ => settle _

end Mild

end Run

namespace Rule

/-- A rule none of whose parts ends the parse. -/
def Mild {α : Type} : Rule α → Prop
  | done _ | look _ | take | marker? | position => True
  | andThen rule next => rule.Mild ∧ ∀ a, (next a).Mild
  | report problem _ | fail problem _ => problem.isMild = true
  | abort _ _ => False
  | attempt rule => rule.Mild
  | many _ _ item => ∀ lexeme, (item lexeme).Mild
  | gather _ _ item => item.Mild

namespace Mild

/-- A mild rule does not end the parse. -/
protected theorem run {α : Type} {rule : Rule α} (mild : rule.Mild) : Run.Mild rule.run := by
  induction rule with
  | done a => exact Run.Mild.done a
  | andThen rule next first second =>
    exact Run.Mild.andThen (first mild.1) fun a => second a (mild.2 a)
  | look n => exact fun _ => ⟨by simp [Rule.run], by simp [Rule.run]⟩
  | take => exact fun _ => ⟨by simp [Rule.run], by simp [Rule.run]⟩
  | marker? =>
    intro state
    unfold Rule.run
    split
    · exact ⟨by simp, by simp⟩
    · exact ⟨by simp, by simp⟩
  | position => exact fun _ => ⟨by simp [Rule.run], by simp [Rule.run]⟩
  | report problem place => exact fun _ => ⟨by simp [Rule.run], by simpa [Rule.run, Rule.Mild] using mild⟩
  | fail problem place => exact fun _ => ⟨by simp [Rule.run], by simpa [Rule.run, Rule.Mild] using mild⟩
  | abort problem place => exact absurd mild id
  | attempt rule ih => exact Run.Mild.attempt (ih mild)
  | many opens goesOn item ih => exact Run.Mild.many fun lexeme => ih lexeme (mild lexeme)
  | gather separator stops item ih => exact Run.Mild.gather (ih mild)

variable {α β : Type}

@[simp] theorem pure (a : α) : (pure a : Rule α).Mild := trivial

@[simp] theorem bind_iff {rule : Rule α} {next : α → Rule β} :
    (rule >>= next).Mild ↔ rule.Mild ∧ ∀ a, (next a).Mild := Iff.rfl

@[simp] theorem map_iff {rule : Rule α} {f : α → β} : (f <$> rule).Mild ↔ rule.Mild :=
  ⟨And.left, fun mild => ⟨mild, fun _ => trivial⟩⟩

@[simp] theorem look (n : Nat) : (look n).Mild := trivial

@[simp] theorem take : Rule.take.Mild := trivial

@[simp] theorem marker : Rule.marker?.Mild := trivial

@[simp] theorem position : Rule.position.Mild := trivial

@[simp] theorem report_iff {problem : Problem} {place : Place} :
    (report problem place).Mild ↔ problem.isMild = true := Iff.rfl

@[simp] theorem fail_iff {problem : Problem} {place : Place} :
    (fail problem place : Rule α).Mild ↔ problem.isMild = true := Iff.rfl

@[simp] theorem attempt_iff {rule : Rule α} : (attempt rule).Mild ↔ rule.Mild := Iff.rfl

@[simp] theorem many_iff {opens : TokenKind → Bool} {goesOn : α → Bool} {item : Lexeme → Rule α} :
    (many opens goesOn item).Mild ↔ ∀ lexeme, (item lexeme).Mild := Iff.rfl

@[simp] theorem gather_iff {separator : TokenKind} {stops : TokenKind → Bool}
    {item : Rule (Option α)} : (gather separator stops item).Mild ↔ item.Mild := Iff.rfl

@[simp] theorem ite {condition : Prop} [Decidable condition] {yes no : Rule α} (first : yes.Mild)
    (second : no.Mild) : (if condition then yes else no).Mild := by
  split
  · exact first
  · exact second

/-! ### The rules that every part of the grammar uses -/

@[simp] theorem kind : Rule.kind.Mild := by simp [Rule.kind]

@[simp] theorem nextKind : Rule.nextKind.Mild := by simp [Rule.nextKind]

@[simp] theorem here : Rule.here.Mild := by simp [Rule.here]

@[simp] theorem since (first : Nat) : (Rule.since first).Mild := by simp [Rule.since]

@[simp] theorem advance : Rule.advance.Mild := by simp [Rule.advance]

@[simp] theorem expected (what context : String) : (Rule.expected what context : Rule α).Mild := by
  simp [Rule.expected, Problem.isMild]

@[simp] theorem reportExpected (what context : String) : (Rule.reportExpected what context).Mild := by
  simp [Rule.reportExpected, Problem.isMild]

@[simp] theorem accept (read : Lexeme → Option α) (what context : String) :
    (Rule.accept read what context).Mild := by
  refine ⟨⟨trivial, fun lexeme => ?_⟩, fun result => ?_⟩
  · dsimp only
    cases read lexeme with
    | none => trivial
    | some a => simp
  · cases result with
    | none => simp
    | some a => simp

@[simp] theorem eatKind (wanted : TokenKind) : (Rule.eatKind wanted).Mild := by simp [Rule.eatKind]

@[simp] theorem eat (wanted : Keyword) : (Rule.eat wanted).Mild := eatKind _

@[simp] theorem eatMark (wanted : Punctuation) : (Rule.eatMark wanted).Mild := eatKind _

@[simp] theorem ofKind (wanted : TokenKind) (context : String) : (Rule.ofKind wanted context).Mild := by
  simp [Rule.ofKind]

@[simp] theorem keyword (wanted : Keyword) (context : String) : (Rule.keyword wanted context).Mild :=
  ofKind _ _

@[simp] theorem symbol (wanted : Punctuation) (context : String) : (Rule.symbol wanted context).Mild :=
  ofKind _ _

@[simp] theorem skipUntil (stops : TokenKind → Bool) : (Rule.skipUntil stops).Mild := by
  simp [Rule.skipUntil, Mild]

@[simp] theorem semicolons : Rule.semicolons.Mild := by simp [Rule.semicolons, Mild]

@[simp] theorem tooDeep : (Rule.tooDeep : Rule α).Mild := by simp [Rule.tooDeep, Problem.isMild]

section

variable {item : Rule α} (mild : item.Mild)
include mild

@[simp] theorem following (separator : TokenKind) : (Rule.following separator item).Mild :=
  fun _ => mild

@[simp] theorem separated (separator : TokenKind) : (Rule.separated separator item).Mild := by
  simp [Rule.separated, mild]

@[simp] theorem commaSeparated : (Rule.commaSeparated item).Mild := separated mild _

@[simp] theorem twoOrMore (context : String) : (Rule.twoOrMore context item).Mild := by
  simp [Rule.twoOrMore, mild]

@[simp] theorem salvagedAfterComma : (Rule.salvagedAfterComma item).Mild := by
  simp [Rule.salvagedAfterComma, mild]

@[simp] theorem salvaged : (Rule.salvaged item).Mild := by
  refine ⟨mild, fun result => ?_⟩
  cases result with
  | none => simp
  | some first => simp [mild]

end

@[simp] theorem closed {list : Rule (Salvage α)} {close : Rule Unit} (mild : list.Mild)
    (ends : close.Mild) : (Rule.closed list close).Mild := by
  simp [Rule.closed, mild, ends]

@[simp] theorem restoring {item : Rule (Salvage α)} (stops : TokenKind → Bool) (mild : item.Mild) :
    (Rule.restoring stops item).Mild := by
  refine ⟨mild, fun result => ?_⟩
  cases result with
  | none => simp
  | some items => simp

end Mild

end Rule

namespace Grammar

/-! ### Names and values -/

@[simp] theorem mild_identifier (context : String) : (identifier context).Mild := .accept _ _ _

@[simp] theorem mild_identifiers (context : String) : (identifiers context).Mild := by
  simp [identifiers]

@[simp] theorem mild_keyspaceName : keyspaceName.Mild := mild_identifier _

@[simp] theorem mild_tableName : tableName.Mild := by simp [tableName]

@[simp] theorem mild_userName (context : String) : (userName context).Mild := .accept _ _ _

@[simp] theorem mild_indexName : indexName.Mild := .accept _ _ _

@[simp] theorem mild_markerOr (constant? : TokenKind → Option Term) (what context : String) :
    (markerOr constant? what context).Mild := by
  refine ⟨trivial, fun ordinal => ?_⟩
  cases ordinal with
  | none => simp
  | some ordinal => simp

@[simp] theorem mild_scalar (context : String) : (scalar context).Mild := mild_markerOr _ _ _

@[simp] theorem mild_integerOrMarker (context : String) : (integerOrMarker context).Mild :=
  mild_markerOr _ _ _

section

variable {value : String → Rule Value} (mild : ∀ context, (value context).Mild)
include mild

theorem mild_listLiteral : (listLiteral value).Mild := by simp [listLiteral, mild]

theorem mild_mapEntry : (mapEntry value).Mild := by simp [mapEntry, mild]

theorem mild_bracedLiteral : (bracedLiteral value).Mild := by
  simp [bracedLiteral, mild, mild_mapEntry mild]

end

theorem mild_scalarOr {list braced : Rule Value} (context : String) (first : list.Mild)
    (second : braced.Mild) : (scalarOr list braced context).Mild := by
  refine ⟨.kind, fun kind => ?_⟩
  dsimp only
  split
  · exact first
  · exact second
  · simp

theorem mild_valueWithin (levels : Nat) (context : String) : (valueWithin levels context).Mild := by
  induction levels generalizing context with
  | zero => exact mild_scalarOr context .tooDeep .tooDeep
  | succ levels ih => exact mild_scalarOr context (mild_listLiteral ih) (mild_bracedLiteral ih)

@[simp] theorem mild_value (context : String) : (value context).Mild :=
  mild_valueWithin maxNesting context

@[simp] theorem mild_values (context : String) : (values context).Mild := by simp [values]

@[simp] theorem mild_mapLiteral : (mapLiteral value).Mild := by
  simp [mapLiteral, mild_mapEntry mild_value]

/-! ### Relations -/

@[simp] theorem mild_comparison : comparison.Mild := .accept _ _ _

@[simp] theorem mild_tokenRelation (first : Nat) : (tokenRelation first).Mild := by
  simp [tokenRelation, Problem.isMild]

@[simp] theorem mild_relation : relation.Mild := by simp [relation]

@[simp] theorem mild_relations : relations.Mild := by simp [relations]

/-! ### SELECT -/

@[simp] theorem mild_atFunction (name : Keyword) : (atFunction name).Mild := by simp [atFunction]

@[simp] theorem mild_integerText (context : String) : (integerText context).Mild := .accept _ _ _

@[simp] theorem mild_countArgument : countArgument.Mild := by simp [countArgument, Problem.isMild]

@[simp] theorem mild_functionArgument : functionArgument.Mild := by simp [functionArgument]

@[simp] theorem mild_selector : selector.Mild := by simp [selector]

@[simp] theorem mild_projection : projection.Mild := by simp [projection]

@[simp] theorem mild_direction : direction.Mild := by simp [direction]

@[simp] theorem mild_ordering : ordering.Mild := by simp [ordering]

@[simp] theorem mild_orderClause : orderClause.Mild := by simp [orderClause]

@[simp] theorem mild_limitClause : limitClause.Mild := by
  refine ⟨.eat _, fun present => .ite ?_ (.pure _)⟩
  refine ⟨.here, fun place => ⟨mild_integerText _, fun text => ?_⟩⟩
  dsimp only
  cases Integer.bounded? 32 text with
  | some limit => simp
  | none => simp [Problem.isMild]

@[simp] theorem mild_filteringClause : filteringClause.Mild := by simp [filteringClause]

@[simp] theorem mild_selection : selection.Mild := by simp [selection]

/-! ### INSERT and DELETE -/

@[simp] theorem mild_objectiveValue (objective : TokenKind) : (objectiveValue objective).Mild := by
  simp [objectiveValue]

@[simp] theorem mild_objectives : objectives.Mild := by simp [objectives]

@[simp] theorem mild_usingClause : usingClause.Mild := by simp [usingClause]

@[simp] theorem mild_insertion : insertion.Mild := by simp [insertion]

@[simp] theorem mild_elementKey : elementKey.Mild := by simp [elementKey]

@[simp] theorem mild_deletionTarget : deletionTarget.Mild := by simp [deletionTarget]

@[simp] theorem mild_timestampClause : timestampClause.Mild := by simp [timestampClause]

@[simp] theorem mild_deletion : deletion.Mild := by simp [deletion]

/-! ### Assignments with a sign, and assignments of values -/

@[simp] theorem mild_elementAssignment : elementAssignment.Mild := by simp [elementAssignment]

@[simp] theorem mild_plainAssignment (column : Identifier) : (plainAssignment column).Mild := by
  simp [plainAssignment, Problem.isMild]

@[simp] theorem mild_signedChange (sign : Sign) {checkColumns : Rule Unit} (mild : checkColumns.Mild) :
    (signedChange sign checkColumns).Mild := by
  refine ⟨.advance, fun _ => ⟨.here, fun place => ⟨mild_value _, fun operand => ⟨mild, fun _ => ?_⟩⟩⟩⟩
  cases Operation.delta sign operand with
  | ok operation => simp
  | error fault => simp [Problem.isMild]

/-! ### Parts of batches -/

@[simp] theorem mild_skipModification : skipModification.Mild := by simp [skipModification]

@[simp] theorem mild_batchMode : batchMode.Mild := by simp [batchMode]

/-! ### Statements about schemas -/

theorem mild_typeOf {element : Rule DataType} (mild : element.Mild) : (typeOf element).Mild := by
  refine ⟨.kind, fun kind => ?_⟩
  dsimp only
  split
  · simp [mild]
  · simp [mild]
  · simp [mild]
  · simp
  · simp

@[simp] theorem mild_dataType : dataType.Mild := by
  have within : ∀ levels, (typeWithin levels).Mild := by
    intro levels
    induction levels with
    | zero => exact mild_typeOf .tooDeep
    | succ levels ih => exact mild_typeOf ih
  exact within maxNesting

theorem isMild_of_propertyEntries {entries : List (Value × Value)} {problem : Problem}
    (found : (propertyEntries entries).2 = some problem) : problem.isMild = true := by
  induction entries with
  | nil => simp [propertyEntries] at found
  | cons entry entries ih =>
    rw [propertyEntries] at found
    split at found
    · obtain rfl := Option.some.inj found
      rfl
    · obtain rfl := Option.some.inj found
      rfl
    · exact ih found

@[simp] theorem mild_propertyMap : propertyMap.Mild := by
  refine ⟨.position, fun first => ⟨mild_mapLiteral, fun entries => ?_⟩⟩
  dsimp only
  split
  · rename_i problem found
    simp [isMild_of_propertyEntries found]
  · simp

@[simp] theorem mild_property : property.Mild := by
  refine ⟨mild_identifier _, fun name => ⟨.symbol _ _, fun _ => ⟨.kind, fun kind => ?_⟩⟩⟩
  dsimp only
  split
  · simp
  · simp [Problem.isMild]
  · simp

@[simp] theorem mild_properties : properties.Mild := by simp [properties]

@[simp] theorem mild_keyComponent : keyComponent.Mild := by simp [keyComponent]

@[simp] theorem mild_primaryKey : primaryKey.Mild := by simp [primaryKey]

@[simp] theorem mild_columnDefinition : columnDefinition.Mild := by simp [columnDefinition]

@[simp] theorem mild_tableElement : tableElement.Mild := by simp [tableElement]

@[simp] theorem mild_tableElements : tableElements.Mild := by simp [tableElements]

@[simp] theorem mild_clusteringEntry : clusteringEntry.Mild := by simp [clusteringEntry]

@[simp] theorem mild_clusteringOrder : clusteringOrder.Mild := by simp [clusteringOrder]

@[simp] theorem mild_tableOption : tableOption.Mild := by simp [tableOption]

@[simp] theorem mild_tableOptions : tableOptions.Mild := by simp [tableOptions, tableOptionOrSkip]

@[simp] theorem mild_tableDefinition : tableDefinition.Mild := by simp [tableDefinition]

@[simp] theorem mild_eatTable : eatTable.Mild := by simp [eatTable]

@[simp] theorem mild_keyspaceDefinition : keyspaceDefinition.Mild := by simp [keyspaceDefinition]

@[simp] theorem mild_indexDefinition : indexDefinition.Mild := by simp [indexDefinition]

@[simp] theorem mild_create : create.Mild := by simp [create]

@[simp] theorem mild_drop : drop.Mild := by simp [drop]

@[simp] theorem mild_tableChange : tableChange.Mild := by simp [tableChange, columnRenaming]

@[simp] theorem mild_alter : alter.Mild := by simp [alter]

/-! ### Permissions -/

@[simp] theorem mild_permissionOnTable : permissionOnTable.Mild := by
  simp [permissionOnTable, permission]

@[simp] theorem mild_grant : grant.Mild := by simp [grant]

@[simp] theorem mild_revocation : revocation.Mild := by simp [revocation]

@[simp] theorem mild_grantsOfUser : grantsOfUser.Mild := by simp [grantsOfUser]

end Grammar

end Cql
