/-
Which tokens a rule can take.

A rule looks at a token before it takes it, so the kinds of the tokens that it can take are known from
its text, however the run ends.  In particular no assignment and no relation runs past the end of its
clause, or into a statement behind it.  What is skipped of a broken one ends with its clause as well, but
not in front of another statement.

* `Rule.TakesOnly` — whatever the rule takes is of a good kind;
* `Rule.TakesOnly.bind`, `Rule.TakesOnly.accept`, `Rule.TakesOnly.skipUntil` and so on — the forms of
  rules;
* `Grammar.takes_tableName`, `Grammar.takes_usingClause` — the tokens between UPDATE and SET;
* `Grammar.takes_assignment`, `Grammar.takes_relation` — the tokens of an assignment or a relation, which
  is read up to the end of its clause at most;
* `Grammar.takes_insertion` — the tokens of an INSERT, which is read up to the next statement at most;
* `Grammar.takes_update`, `Grammar.takes_deletion` — the tokens of a statement with lists that may be
  broken, which is read up to a semicolon or to the end of its batch at most.
-/
import Cql.Grammar.Batch
import Cql.Proofs.Reading

namespace Cql

/-- A token that can stand inside a clause: it neither begins another one nor ends the statement. -/
def TokenKind.isInClause (kind : TokenKind) : Bool :=
  !kind.isClauseBoundary && kind ≠ .endOfInput

/-- A token that can stand between UPDATE and SET: of the name of a table, or of its USING clause. -/
def TokenKind.isHeading : TokenKind → Bool
  | punctuation .dot | punctuation .questionMark | integer _ | keyword .USING | keyword .AND
  | keyword .TTL | keyword .TIMESTAMP => true
  | kind => kind.isNameLike

theorem TokenKind.isHeading_of_isNameLike {kind : TokenKind} (h : kind.isNameLike = true) :
    kind.isHeading = true := by
  unfold isHeading
  split
  all_goals first | rfl | exact h

/-- A token that can stand inside an assignment or a relation: inside a clause, and neither at the
beginning of a statement nor between two relations. -/
def TokenKind.isInItem (kind : TokenKind) : Bool :=
  kind.isInClause && (!kind.isBatchBoundary && kind ≠ .keyword .AND)

theorem TokenKind.isInItem_of_isNameLike {kind : TokenKind} (h : kind.isNameLike = true) :
    kind.isInItem = true := by
  cases kind with
  | keyword keyword => revert h; cases keyword <;> decide
  | _ => first | rfl | exact absurd h (by simp [isNameLike, isUnreservedKeyword])

theorem TokenKind.isInClause_of_isInItem {kind : TokenKind} (h : kind.isInItem = true) :
    kind.isInClause = true :=
  (Bool.and_eq_true_iff.1 h).1

/-- Can the token stand inside a statement of a batch? -/
def TokenKind.isInPart (kind : TokenKind) : Bool :=
  kind ≠ .punctuation .semicolon && kind ≠ .keyword .APPLY && kind ≠ .endOfInput

theorem TokenKind.isInPart_iff {kind : TokenKind} : kind.isInPart = true ↔
    kind ≠ .punctuation .semicolon ∧ kind ≠ .keyword .APPLY ∧ kind ≠ .endOfInput := by
  simp [isInPart, and_assoc]

theorem TokenKind.isInPart_of_isInClause {kind : TokenKind} (h : kind.isInClause = true) :
    kind.isInPart = true := by
  refine isInPart_iff.2 ⟨?_, ?_, ?_⟩
  all_goals
    rintro rfl
    cases h

/-- A token that can stand inside a statement of a batch that is not broken: not at the beginning of
another one either. -/
def TokenKind.isInStatement (kind : TokenKind) : Bool := kind.isInPart && !kind.isBatchBoundary

theorem TokenKind.isInPart_of_isInStatement {kind : TokenKind} (h : kind.isInStatement = true) :
    kind.isInPart = true :=
  (Bool.and_eq_true_iff.1 h).1

theorem TokenKind.isInStatement_of_isInItem {kind : TokenKind} (h : kind.isInItem = true) :
    kind.isInStatement = true := by
  obtain ⟨inClause, other⟩ := Bool.and_eq_true_iff.1 h
  exact Bool.and_eq_true_iff.2 ⟨isInPart_of_isInClause inClause, (Bool.and_eq_true_iff.1 other).1⟩

theorem TokenKind.isInStatement_of_isHeading {kind : TokenKind} (h : kind.isHeading = true) :
    kind.isInStatement = true := by
  refine Bool.and_eq_true_iff.2 ⟨isInPart_iff.2 ⟨?_, ?_, ?_⟩, ?_⟩
  · rintro rfl
    cases h
  · rintro rfl
    cases h
  · rintro rfl
    cases h
  · unfold isBatchBoundary
    split
    all_goals first | rfl | cases h

namespace State

variable {good : TokenKind → Bool} {first second third : State}

/-- The second state comes from the first by taking tokens of good kinds. -/
def TakesOnly (good : TokenKind → Bool) (first second : State) : Prop :=
  ∃ taken, second.stream.passed = taken ++ first.stream.passed ∧
    ∀ token ∈ taken, good token.kind = true

namespace TakesOnly

theorem refl (state : State) : state.TakesOnly good state := ⟨[], rfl, by simp⟩

theorem trans (h : first.TakesOnly good second) (h' : second.TakesOnly good third) :
    first.TakesOnly good third := by
  obtain ⟨taken, passed, all⟩ := h
  obtain ⟨taken', passed', all'⟩ := h'
  refine ⟨taken' ++ taken, by rw [passed', passed, List.append_assoc], fun token mem => ?_⟩
  rcases List.mem_append.1 mem with mem | mem
  · exact all' token mem
  · exact all token mem

end TakesOnly

theorem passed_advance {state : State} {token : Token} {rest : List Token}
    (ahead : state.stream.ahead = token :: rest) :
    state.advance.stream.passed = token :: state.stream.passed := by
  simp [advance, TokenStream.advance, ahead]

/-- At the end of the input nothing is taken. -/
theorem takesOnly_advance {state : State} (h : good state.kind = true) :
    state.TakesOnly good state.advance := by
  cases ahead : state.stream.ahead with
  | nil =>
    refine ⟨[], ?_, by simp⟩
    simp [advance, TokenStream.advance, ahead]
  | cons token rest =>
    refine ⟨[token], passed_advance ahead, ?_⟩
    rw [kind, lexeme, TokenStream.peek, ahead] at h
    simpa using h

end State

namespace Rule

variable {α β : Type} {good : TokenKind → Bool} {state : State}

/-- Whatever the rule takes from `state` is of a good kind. -/
def TakesOnlyAt (good : TokenKind → Bool) (state : State) (rule : Rule α) : Prop :=
  state.TakesOnly good (rule.run state).state

/-- Whatever the rule takes is of a good kind. -/
def TakesOnly (good : TokenKind → Bool) (rule : Rule α) : Prop :=
  ∀ state, rule.TakesOnlyAt good state

/-- Two rules in a row take what the first one takes, and then what the second one does where it comes
to be run. -/
theorem TakesOnlyAt.bind {rule : Rule α} {next : α → Rule β} (first : rule.TakesOnlyAt good state)
    (second : ∀ a, (rule.run state).result = .ok a →
      (next a).TakesOnlyAt good (rule.run state).state) :
    (rule >>= next).TakesOnlyAt good state := by
  show state.TakesOnly good (Run.andThen rule.run (fun a => (next a).run) state).state
  unfold Run.andThen
  cases result : (rule.run state).result with
  | ok a =>
    simp only [result]
    exact first.trans (second a result)
  | error halt =>
    simp only [result]
    exact first

/-- What the rule takes are tokens ahead. -/
theorem TakesOnlyAt.exists_taken {rule : Rule α} (h : rule.TakesOnlyAt good state) :
    ∃ taken, state.stream.ahead = taken ++ (rule.run state).state.stream.ahead ∧
      ∀ token ∈ taken, good token.kind = true := by
  obtain ⟨taken, ahead, passed, -⟩ := rule.run_takes state
  obtain ⟨taken', passed', inside⟩ := h
  refine ⟨taken, ahead, fun token mem => inside token ?_⟩
  rw [← List.append_cancel_right (passed.symm.trans passed')]
  exact List.mem_reverse.2 mem

theorem takesOnlyAt_kind_bind {next : TokenKind → Rule β} :
    (Rule.kind >>= next).TakesOnlyAt good state ↔ (next state.kind).TakesOnlyAt good state :=
  Iff.rfl

theorem takesOnlyAt_advance_bind {next : Unit → Rule β} (h : good state.kind = true)
    (second : (next ()).TakesOnly good) : (Rule.advance >>= next).TakesOnlyAt good state :=
  .bind (State.takesOnly_advance h) fun _ _ => second _

namespace TakesOnly

theorem pure (a : α) : (pure a : Rule α).TakesOnly good := fun state => .refl state

theorem bind {rule : Rule α} {next : α → Rule β} (first : rule.TakesOnly good)
    (second : ∀ a, (next a).TakesOnly good) : (rule >>= next).TakesOnly good :=
  fun state => .bind (first state) fun a _ => second a _

theorem map {rule : Rule α} (f : α → β) (h : rule.TakesOnly good) : (f <$> rule).TakesOnly good :=
  h.bind fun _ => pure _

theorem mono {good' : TokenKind → Bool} {rule : Rule α} (h : rule.TakesOnly good)
    (more : ∀ kind, good kind = true → good' kind = true) : rule.TakesOnly good' := by
  intro state
  obtain ⟨taken, passed, all⟩ := h state
  exact ⟨taken, passed, fun token mem => more _ (all token mem)⟩

theorem ite {condition : Prop} [Decidable condition] {yes no : Rule α} (first : yes.TakesOnly good)
    (second : no.TakesOnly good) : (if condition then yes else no).TakesOnly good := by
  split
  · exact first
  · exact second

theorem look (n : Nat) : (look n).TakesOnly good := fun state => .refl state

theorem kind : Rule.kind.TakesOnly good := fun state => .refl state

theorem nextKind : Rule.nextKind.TakesOnly good := fun state => .refl state

theorem here : Rule.here.TakesOnly good := fun state => .refl state

theorem report (problem : Problem) (place : Place) : (report problem place).TakesOnly good :=
  fun state => .refl state

theorem fail (problem : Problem) (place : Place) : (fail problem place : Rule α).TakesOnly good :=
  fun state => .refl state

theorem abort (problem : Problem) (place : Place) : (abort problem place : Rule α).TakesOnly good :=
  fun state => .refl state

theorem expected (what context : String) : (expected what context : Rule α).TakesOnly good :=
  fun state => .refl state

theorem tooDeep : (tooDeep : Rule α).TakesOnly good := fun state => .refl state

theorem marker (h : good (.punctuation .questionMark) = true) : marker?.TakesOnly good := by
  intro state
  unfold TakesOnlyAt run
  split
  · rename_i isMarker
    exact State.takesOnly_advance (by rwa [State.kind, isMarker])
  · exact .refl state

theorem attempt {rule : Rule α} (h : rule.TakesOnly good) : (attempt rule).TakesOnly good := by
  intro state
  unfold TakesOnlyAt run Run.attempt
  simp only
  split <;> exact h state

theorem accept {read : Lexeme → Option α} (what context : String)
    (h : ∀ lexeme a, read lexeme = some a → good lexeme.kind = true) :
    (accept read what context).TakesOnly good := by
  have looked : (accept? read).TakesOnly good := by
    intro state
    refine .bind (look 0 state) fun lexeme found => ?_
    obtain rfl : state.lexeme 0 = lexeme := Except.ok.inj found
    cases seen : read (state.lexeme 0) with
    | some a => exact takesOnlyAt_advance_bind (h _ a seen) (pure _)
    | none => exact pure _ _
  refine looked.bind fun result => ?_
  cases result with
  | some a => exact pure a
  | none => exact expected what context

theorem eatKind {wanted : TokenKind} (h : good wanted = true) : (eatKind wanted).TakesOnly good := by
  intro state
  unfold Rule.eatKind
  rw [takesOnlyAt_kind_bind]
  split
  · rename_i same
    exact takesOnlyAt_advance_bind (by rwa [same]) (pure _)
  · exact pure _ state

theorem ofKind {wanted : TokenKind} (context : String) (h : good wanted = true) :
    (ofKind wanted context).TakesOnly good :=
  (eatKind h).bind fun _ => ite (expected _ _) (pure _)

/-- A list takes the tokens that open its items, and what the items take. -/
theorem many {opens : TokenKind → Bool} {goesOn : α → Bool} {item : Lexeme → Rule α}
    (opened : ∀ kind, opens kind = true → good kind = true)
    (items : ∀ lexeme, (item lexeme).TakesOnly good) : (many opens goesOn item).TakesOnly good := by
  have first {state : State} {token : Token} {rest : List Token} (ahead : state.stream.ahead = token :: rest)
      (isOpen : opens token.kind = true) :
      state.TakesOnly good ((item token.toLexeme).run state.advance).state := by
    have kind : state.kind = token.kind := by
      simp [State.kind, State.lexeme, TokenStream.peek, ahead]
    exact (State.takesOnly_advance (by rw [kind]; exact opened _ isOpen)).trans (items _ _)
  intro state
  refine many_induction (motive := fun state reply => state.TakesOnly good reply.state)
    (fun state _ => .refl state) ?_ ?_ ?_ state
  · exact fun ahead isOpen _ => first ahead isOpen
  · exact fun ahead isOpen _ _ => first ahead isOpen
  · exact fun _ ahead isOpen _ _ others => (first ahead isOpen).trans others

theorem skipUntil {stops : TokenKind → Bool}
    (h : ∀ kind, stops kind = false → kind ≠ .endOfInput → good kind = true) :
    (skipUntil stops).TakesOnly good := by
  refine bind (many (fun kind skipped => ?_) fun _ => pure ()) fun _ => pure ()
  rw [Bool.and_eq_true, Bool.not_eq_true', decide_eq_true_eq] at skipped
  exact h kind skipped.1 skipped.2

theorem following {separator : TokenKind} {item : Rule α} (h : good separator = true)
    (items : item.TakesOnly good) : (following separator item).TakesOnly good := by
  refine many (fun kind same => ?_) fun _ => items
  rwa [of_decide_eq_true same]

theorem separated {separator : TokenKind} {item : Rule α} (h : good separator = true)
    (items : item.TakesOnly good) : (separated separator item).TakesOnly good :=
  items.bind fun _ => (following h items).bind fun _ => pure _

theorem twoOrMore {context : String} {item : Rule α} (h : good (.punctuation .comma) = true)
    (items : item.TakesOnly good) : (twoOrMore context item).TakesOnly good :=
  items.bind fun _ => (ofKind _ h).bind fun _ => (separated h items).bind fun _ => pure _

theorem part {stops : TokenKind → Bool} {item : Rule α}
    (h : ∀ kind, stops kind = false → kind ≠ .endOfInput → good kind = true)
    (items : item.TakesOnly good) : (part stops item).TakesOnly good := by
  refine (attempt items).bind fun result => ?_
  cases result with
  | some a => exact pure _
  | none => exact (skipUntil h).bind fun _ => pure _

/-- A list that may be broken is a list of parts. -/
theorem gather {separator : TokenKind} {stops : TokenKind → Bool} {item : Rule (Option α)}
    (h : good separator = true)
    (skipped : ∀ kind, stops kind = false → kind ≠ .endOfInput → good kind = true)
    (items : item.TakesOnly good) : (gather separator stops item).TakesOnly good := by
  intro state
  have next : (Rule.part (fun kind => kind = separator || stops kind) item).TakesOnly good :=
    part (fun kind goesOn => skipped kind (Bool.or_eq_false_iff.1 goesOn).2) items
  unfold TakesOnlyAt
  rw [state_gather]
  exact separated h next state

end TakesOnly

end Rule

namespace Grammar

open Rule TakesOnly

/-! ### Between UPDATE and SET -/

theorem isNameLike_of_ofLexeme? {lexeme : Lexeme} {name : Identifier}
    (h : Identifier.ofLexeme? lexeme = some name) : lexeme.kind.isNameLike = true := by
  unfold Identifier.ofLexeme? at h
  split at h
  · rename_i kind
    simp [kind, TokenKind.isNameLike]
  · rename_i kind
    simp [kind, TokenKind.isNameLike]
  · rename_i keyword kind
    split at h
    · rename_i unreserved
      simpa [kind, TokenKind.isNameLike, TokenKind.isUnreservedKeyword] using unreserved
    · exact absurd h (by simp)
  · exact absurd h (by simp)

section

variable {good : TokenKind → Bool}

theorem takes_identifier (names : ∀ kind : TokenKind, kind.isNameLike = true → good kind = true)
    (context : String) : (identifier context).TakesOnly good :=
  accept _ _ fun _ _ h => names _ (isNameLike_of_ofLexeme? h)

theorem takes_markerOr {constant? : TokenKind → Option Term}
    (marker : good (.punctuation .questionMark) = true)
    (constants : ∀ kind term, constant? kind = some term → good kind = true)
    (what context : String) : (markerOr constant? what context).TakesOnly good := by
  refine (TakesOnly.marker marker).bind fun ordinal => ?_
  cases ordinal with
  | some ordinal => exact pure _
  | none => exact accept _ _ fun lexeme term => constants lexeme.kind term

end

theorem takes_tableName : tableName.TakesOnly TokenKind.isHeading := by
  have name := takes_identifier (fun _ => TokenKind.isHeading_of_isNameLike) "for table name"
  exact name.bind fun _ => (eatKind rfl).bind fun _ => ite (name.bind fun _ => pure _) (pure _)

theorem takes_objectiveValue (objective : TokenKind) :
    (objectiveValue objective).TakesOnly TokenKind.isHeading := by
  have amount : (integerOrMarker ("after " ++ objective.render)).TakesOnly TokenKind.isHeading := by
    refine takes_markerOr rfl (fun kind term constant => ?_) _ _
    cases kind with
    | integer digits => rfl
    | _ => exact absurd constant (by simp)
  refine amount.bind fun term state => ?_
  rw [takesOnlyAt_kind_bind]
  refine .bind (nextKind state) fun next _ => ?_
  split
  · rename_i another
    have current : state.kind = .keyword .AND := by
      rw [Bool.and_eq_true, decide_eq_true_eq] at another
      exact another.1
    have heading : state.kind.isHeading = true := by rw [current]; rfl
    exact takesOnlyAt_advance_bind heading (pure _)
  · exact pure _ _

theorem takes_usingClause : usingClause.TakesOnly TokenKind.isHeading := by
  refine (eatKind rfl).bind fun _ => ite ?_ (pure _)
  refine kind.bind fun _ => ?_
  have opened : ∀ kind, TokenKind.isObjective kind = true → TokenKind.isHeading kind = true := by
    intro kind objective
    unfold TokenKind.isObjective at objective
    split at objective
    all_goals first | rfl | exact absurd objective (by simp)
  have settings : (Rule.many TokenKind.isObjective (fun _ => true) fun objective => do
      return (objective.kind, ← objectiveValue objective.kind)).TakesOnly TokenKind.isHeading :=
    many opened fun lexeme => (takes_objectiveValue lexeme.kind).bind fun _ => pure _
  split
  · exact (TakesOnly.expected _ _).bind fun _ => settings.bind fun _ => pure _
  · exact settings.bind fun _ => pure _

/-! ### Inside an assignment or a relation -/

section

variable {value : String → Rule Value}
  (h : ∀ context, (value context).TakesOnly TokenKind.isInItem)
include h

theorem takes_listLiteral : (listLiteral value).TakesOnly TokenKind.isInItem :=
  (ofKind _ rfl).bind fun _ => (eatKind rfl).bind fun _ => ite (pure _)
    ((separated rfl (h _)).bind fun _ => (ofKind _ rfl).bind fun _ => pure _)

theorem takes_mapEntry : (mapEntry value).TakesOnly TokenKind.isInItem :=
  (h _).bind fun _ => (ofKind _ rfl).bind fun _ => (h _).bind fun _ => pure _

theorem takes_bracedLiteral : (bracedLiteral value).TakesOnly TokenKind.isInItem := by
  refine (ofKind _ rfl).bind fun _ => (eatKind rfl).bind fun _ => ite (pure _) ?_
  refine (h _).bind fun first => (eatKind rfl).bind fun _ => ite ?_ ?_
  · exact (h _).bind fun _ => (following rfl (takes_mapEntry h)).bind fun _ =>
      (ofKind _ rfl).bind fun _ => pure _
  · exact (following rfl (h _)).bind fun _ => (ofKind _ rfl).bind fun _ => pure _

end

theorem takes_scalar (context : String) : (scalar context).TakesOnly TokenKind.isInItem := by
  refine takes_markerOr rfl (fun kind term constant => ?_) _ _
  unfold Term.ofKind? at constant
  split at constant
  all_goals first | rfl | exact absurd constant (by simp)

theorem takes_scalarOr {list braced : Rule Value} (context : String)
    (first : list.TakesOnly TokenKind.isInItem) (second : braced.TakesOnly TokenKind.isInItem) :
    (scalarOr list braced context).TakesOnly TokenKind.isInItem := by
  refine kind.bind fun current => ?_
  split
  · exact first
  · exact second
  · exact (takes_scalar context).bind fun _ => pure _

theorem takes_value (context : String) : (value context).TakesOnly TokenKind.isInItem := by
  have within : ∀ levels context, (valueWithin levels context).TakesOnly TokenKind.isInItem := by
    intro levels
    induction levels with
    | zero => exact fun context => takes_scalarOr context tooDeep tooDeep
    | succ levels ih =>
      exact fun context => takes_scalarOr context (takes_listLiteral ih) (takes_bracedLiteral ih)
  exact within maxNesting context

theorem takes_columnName (context : String) : (identifier context).TakesOnly TokenKind.isInItem :=
  takes_identifier (fun _ => TokenKind.isInItem_of_isNameLike) context

theorem takes_elementAssignment : elementAssignment.TakesOnly TokenKind.isInItem := by
  have key : elementKey.TakesOnly TokenKind.isInItem :=
    (takes_value _).bind fun _ => (ofKind _ rfl).bind fun _ => pure _
  exact key.bind fun _ => (ofKind _ rfl).bind fun _ => (takes_value _).bind fun _ => pure _

theorem takes_plainAssignment (column : Identifier) :
    (plainAssignment column).TakesOnly TokenKind.isInItem := by
  refine (takes_value _).bind fun _ => (eatKind rfl).bind fun _ => ite ?_ (pure _)
  refine here.bind fun place => (takes_columnName _).bind fun other => ?_
  split
  · exact (TakesOnly.report _ _).bind fun _ => pure _
  · exact pure _

section

variable {checkColumns : Rule Unit} (h : checkColumns.TakesOnly TokenKind.isInItem) {state : State}
include h

theorem takes_signedChange (sign : Sign) (current : state.kind.isInItem = true) :
    (signedChange sign checkColumns).TakesOnlyAt TokenKind.isInItem state := by
  refine takesOnlyAt_advance_bind current (here.bind fun place => ?_)
  refine (takes_value _).bind fun operand => h.bind fun _ => ?_
  cases Operation.delta sign operand with
  | ok operation => exact pure _
  | error fault => exact fail _ _

theorem takes_unsignedChange (digits : String) (current : state.kind.isInItem = true) :
    (unsignedChange digits checkColumns).TakesOnlyAt TokenKind.isInItem state :=
  .bind (here state) fun _ _ => takesOnlyAt_advance_bind current
    (h.bind fun _ => ite (pure _) (abort _ _))

end

theorem takes_selfAssignment (column : Identifier) :
    (selfAssignment column).TakesOnly TokenKind.isInItem := by
  refine here.bind fun place => (takes_columnName _).bind fun other state => ?_
  have check : (if other == column then Pure.pure () else Rule.report .startsFromOther place :
      Rule Unit).TakesOnly TokenKind.isInItem := ite (pure _) (report _ _)
  rw [takesOnlyAt_kind_bind]
  split
  · rename_i current
    exact takes_signedChange check _ (by rw [current]; rfl)
  · rename_i current
    exact takes_signedChange check _ (by rw [current]; rfl)
  · rename_i current
    exact takes_unsignedChange check _ (by rw [current]; rfl)
  · exact (takes_scalar _).bind (fun _ => check.bind fun _ => pure _) state
  · exact expected _ _ state

/-- An assignment ends with its clause at the latest, or in front of the next statement. -/
theorem takes_assignment : assignment.TakesOnly TokenKind.isInItem := by
  refine (takes_columnName _).bind fun column => (eatKind rfl).bind fun _ => ite ?_ ?_
  · exact takes_elementAssignment.bind fun _ => pure _
  refine (ofKind _ rfl).bind fun _ => kind.bind fun _ => ite ?_ ?_
  · exact (takes_selfAssignment column).bind fun _ => pure _
  · exact (takes_plainAssignment column).bind fun _ => pure _

theorem takes_comparison : comparison.TakesOnly TokenKind.isInItem := by
  refine accept _ _ fun lexeme sign seen => ?_
  split at seen
  · rename_i mark kind
    rw [kind, Comparison.ofMark?_eq_some.1 seen]
    cases sign <;> rfl
  · cases seen

theorem takes_columns (context : String) : (identifiers context).TakesOnly TokenKind.isInItem :=
  separated rfl (takes_columnName _)

theorem takes_values (context : String) : (values context).TakesOnly TokenKind.isInItem :=
  separated rfl (takes_value _)

theorem takes_tokenRelation (first : Nat) : (tokenRelation first).TakesOnly TokenKind.isInItem := by
  refine (ofKind _ rfl).bind fun _ => (takes_columns _).bind fun _ => (ofKind _ rfl).bind fun _ =>
    takes_comparison.bind fun _ => (eatKind rfl).bind fun _ => ite ?_ ?_
  · refine (ofKind _ rfl).bind fun _ => (takes_values _).bind fun _ => (ofKind _ rfl).bind fun _ =>
      ite (pure _) ?_
    exact TakesOnly.bind (fun state => .refl state) fun _ => (TakesOnly.report _ _).bind fun _ => pure _
  · exact (takes_value _).bind fun _ => pure _

/-- So does a relation. -/
theorem takes_relation : relation.TakesOnly TokenKind.isInItem := by
  refine TakesOnly.bind (fun state => .refl state) fun first => (eatKind rfl).bind fun _ =>
    ite (takes_tokenRelation first) ?_
  refine (takes_columnName _).bind fun _ => (eatKind rfl).bind fun _ => ite ?_ ?_
  · exact (ofKind _ rfl).bind fun _ => (takes_values _).bind fun _ => (ofKind _ rfl).bind fun _ => pure _
  · exact takes_comparison.bind fun _ => (takes_value _).bind fun _ => pure _

/-! ### Statements that change rows -/

theorem takes_item {α : Type} {rule : Rule α} (h : rule.TakesOnly TokenKind.isInItem) :
    rule.TakesOnly TokenKind.isInStatement :=
  h.mono fun _ => TokenKind.isInStatement_of_isInItem

theorem takes_heading {α : Type} {rule : Rule α} (h : rule.TakesOnly TokenKind.isHeading) :
    rule.TakesOnly TokenKind.isInStatement :=
  h.mono fun _ => TokenKind.isInStatement_of_isHeading

theorem takes_inStatement {α : Type} {rule : Rule α} (h : rule.TakesOnly TokenKind.isInStatement) :
    rule.TakesOnly TokenKind.isInPart :=
  h.mono fun _ => TokenKind.isInPart_of_isInStatement

/-- What is skipped of a broken item ends with its clause. -/
theorem takes_gather {α : Type} {separator : TokenKind} {item : Rule (Option α)}
    (h : separator.isInPart = true) (items : item.TakesOnly TokenKind.isInItem) :
    (Rule.gather separator TokenKind.isClauseBoundary item).TakesOnly TokenKind.isInPart := by
  refine .gather h (fun kind goesOn inside => ?_) (takes_inStatement (takes_item items))
  exact TokenKind.isInPart_of_isInClause (by simp [TokenKind.isInClause, goesOn, inside])

theorem takes_relations : relations.TakesOnly TokenKind.isInPart := takes_gather rfl takes_relation

theorem takes_assignments : assignments.TakesOnly TokenKind.isInPart :=
  takes_gather rfl (takes_assignment.map some)

theorem takes_insertion : insertion.TakesOnly TokenKind.isInStatement := by
  have columns : (Rule.twoOrMore "in column list" (identifier "in column list")).TakesOnly
      TokenKind.isInStatement :=
    takes_item (twoOrMore rfl (takes_columnName _))
  have values : (Rule.twoOrMore "in value list" (value "in value list")).TakesOnly
      TokenKind.isInStatement :=
    takes_item (twoOrMore rfl (takes_value _))
  exact (ofKind _ rfl).bind fun _ => (takes_heading takes_tableName).bind fun _ =>
    (ofKind _ rfl).bind fun _ => columns.bind fun _ => (ofKind _ rfl).bind fun _ =>
    (ofKind _ rfl).bind fun _ => (ofKind _ rfl).bind fun _ => values.bind fun _ =>
    (ofKind _ rfl).bind fun _ => (takes_heading takes_usingClause).bind fun _ => pure _

theorem takes_update : update.TakesOnly TokenKind.isInPart :=
  (takes_inStatement (takes_heading takes_tableName)).bind fun _ =>
    (takes_inStatement (takes_heading takes_usingClause)).bind fun _ =>
    (ofKind _ rfl).bind fun _ => takes_assignments.bind fun _ => (ofKind _ rfl).bind fun _ =>
    takes_relations.bind fun _ => pure _

theorem takes_timestampClause : timestampClause.TakesOnly TokenKind.isInStatement := by
  have amount : (integerOrMarker "after TIMESTAMP").TakesOnly TokenKind.isInStatement := by
    refine takes_markerOr rfl (fun kind term constant => ?_) _ _
    cases kind with
    | integer digits => rfl
    | _ => exact absurd constant (by simp)
  exact (eatKind rfl).bind fun _ => ite ((ofKind _ rfl).bind fun _ => amount.bind fun _ => pure _) (pure _)

theorem takes_deletionTarget : deletionTarget.TakesOnly TokenKind.isInStatement := by
  have key : elementKey.TakesOnly TokenKind.isInStatement :=
    (takes_item (takes_value _)).bind fun _ => (ofKind _ rfl).bind fun _ => pure _
  exact (takes_item (takes_columnName _)).bind fun _ => (eatKind rfl).bind fun _ =>
    ite (key.bind fun _ => pure _) (pure _)

theorem takes_deletion : deletion.TakesOnly TokenKind.isInPart := by
  have rest : ∀ targets, (do
      Rule.keyword .FROM "in DELETE"
      let table ← tableName
      let attributes ← timestampClause
      Rule.keyword .WHERE "in DELETE"
      let relations ← relations
      return { table, targets, attributes, relations } : Rule Deletion).TakesOnly
        TokenKind.isInPart := fun _ =>
    (ofKind _ rfl).bind fun _ => (takes_inStatement (takes_heading takes_tableName)).bind fun _ =>
      (takes_inStatement takes_timestampClause).bind fun _ => (ofKind _ rfl).bind fun _ =>
      takes_relations.bind fun _ => pure _
  refine kind.bind fun _ => ?_
  split
  · exact (TakesOnly.pure _).bind fun _ => rest _
  · exact (separated rfl (takes_inStatement takes_deletionTarget)).bind fun _ => rest _

end Grammar

end Cql
