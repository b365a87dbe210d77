/-
UPDATE is read as the grammar has it.

* `Grammar.recognizes_afterSelf` — what follows a column that is assigned to itself;
* `Grammar.recognizes_assignment` — the assignments, whose forms are told apart by what stands after
  the equality sign;
* `Grammar.recognizes_update` — the statement after its keyword.
-/
import Cql.Proofs.Changes

namespace Cql

/-- The mark that a sign is written with. -/
def Sign.mark : Sign → Punctuation
  | .plus => .plus
  | .minus => .minus

namespace Grammar

open Rule Phrase

/-! ### Changes of a column -/

theorem isNonPositive_iff {digits : String} :
    isNonPositive digits = true ↔ Language.NotPositive digits := by
  simp [isNonPositive, Language.NotPositive]

theorem recognizes_elementAssignment : elementAssignment.Recognizes (do
    let key ← Language.value
    mark .rightBracket
    mark .equal
    return .element key (← Language.value)) anything := by
  have shape : (do
      let key ← Language.value
      mark .rightBracket
      mark .equal
      return .element key (← Language.value) : Phrase Operation) = (do
      let key ← (do
        let key ← Language.value
        mark .rightBracket
        return key)
      mark .equal
      return .element key (← Language.value)) := by
    simp only [bind_assoc, pure_bind]
  rw [shape]
  refine recognizes_elementKey.andThen fun key => (Recognizes.symbol _ rfl).andThen fun _ => ?_
  exact (recognizes_value _).andThen fun _ => .pure _

theorem recognizes_plainAssignment (column : Identifier) :
    (plainAssignment column).Recognizes (do
      let items ← Language.value
      (do
        mark .plus
        Language.itself column
        return .listPrepend items) <|>
      pure (.assign items)) (· ≠ .punctuation .plus) := by
  refine (recognizes_value _).andThen fun items => .ifEat (by decide) ?_ (.pure _) ?_
  · refine .here fun place => ?_
    simp only [Language.itself, bind_assoc]
    refine (recognizes_identifier _).andThen fun other => ?_
    have same : ((other == column) = true) = ¬ (other != column) = true := by simp [bne]
    rw [same]
    exact .ifFails (.pure _) fun _ _ _ => not_reads_report_bind
  · exact .pure _ fun _ => id

/-- What follows `column '=' column`. -/
def afterSelf (other : Identifier) (checkColumns : Rule Unit) : Rule Operation := do
  match ← kind with
  | .punctuation .plus => signedChange .plus checkColumns
  | .punctuation .minus => signedChange .minus checkColumns
  | .integer digits => unsignedChange digits checkColumns
  | .punctuation .questionMark =>
    let amount ← scalar "in assignment"
    checkColumns
    return .counterDecrement amount
  | _ => expected "'+' or '-'" ("after " ++ other.render)

theorem selfAssignment_eq (column : Identifier) : selfAssignment column = (do
    let place ← here
    let other ← identifier "in assignment"
    afterSelf other (if other == column then pure () else report .startsFromOther place)) :=
  rfl

/-- If the columns differ, there is a report. -/
theorem not_reads_afterSelf {other : Identifier} {problem : Problem} {place : Place}
    {state after : State} {operation : Operation} :
    ¬ (afterSelf other (report problem place)).Reads state operation after := by
  intro h
  unfold afterSelf at h
  rw [reads_kind_bind] at h
  split at h
  · rw [signedChange, reads_advance_bind, reads_here_bind, reads_bind] at h
    obtain ⟨operand, mid, -, reported⟩ := h
    exact not_reads_report_bind reported
  · rw [signedChange, reads_advance_bind, reads_here_bind, reads_bind] at h
    obtain ⟨operand, mid, -, reported⟩ := h
    exact not_reads_report_bind reported
  · rw [unsignedChange, reads_here_bind, reads_advance_bind] at h
    exact not_reads_report_bind h
  · rw [reads_bind] at h
    obtain ⟨amount, mid, -, reported⟩ := h
    exact not_reads_report_bind reported
  · exact not_reads_expected h

theorem reads_signedChange {sign : Sign} {state after : State} {operation : Operation} :
    (signedChange sign (pure ())).Reads state operation after ↔ ∃ operand,
      (value "after operator").Reads state.advance operand after ∧
        Operation.delta sign operand = .ok operation := by
  unfold signedChange
  simp only [reads_advance_bind, reads_here_bind]
  rw [reads_bind]
  constructor
  · rintro ⟨operand, mid, first, second⟩
    split at second
    · rename_i found same
      obtain ⟨rfl, rfl⟩ := reads_pure.1 second
      exact ⟨operand, first, same⟩
    · exact absurd second not_reads_fail
  · rintro ⟨operand, first, same⟩
    refine ⟨operand, after, first, ?_⟩
    rw [same]
    exact reads_pure.2 ⟨rfl, rfl⟩

theorem reads_unsignedChange {digits : String} {state after : State} {operation : Operation} :
    (unsignedChange digits (pure ())).Reads state operation after ↔
      Language.NotPositive digits ∧ operation = .counterDecrement (.integer (magnitude digits)) ∧
        after = state.advance := by
  unfold unsignedChange
  simp only [reads_advance_bind, reads_here_bind, reads_pure_bind]
  by_cases negative : isNonPositive digits = true
  · rw [if_pos negative, reads_pure]
    simp [isNonPositive_iff.1 negative]
  · rw [if_neg negative]
    constructor
    · exact fun h => absurd h not_reads_abort
    · exact fun h => absurd (isNonPositive_iff.2 h.1) negative

theorem signedChange_iff {items : List Numbered} {operation : Operation} :
    Language.signedChange items operation ↔ ∃ item rest sign operand, items = item :: rest ∧
      item.kind = .punctuation (Sign.mark sign) ∧ Language.value rest operand ∧
        Operation.delta sign operand = .ok operation := by
  unfold Language.signedChange Language.sign
  rw [token_bind_iff]
  constructor
  · rintro ⟨item, _, sign, rfl, signed, rest, operand, _, rfl, spelled, rfl, changes⟩
    refine ⟨item, rest, sign, operand, by rw [List.append_nil], ?_, spelled,
      Language.changes_iff.1 changes⟩
    split at signed
    · rename_i plus
      rw [plus, ← Option.some.inj signed, Sign.mark]
    · rename_i minus
      rw [minus, ← Option.some.inj signed, Sign.mark]
    · exact absurd signed (by simp)
  · rintro ⟨item, rest, sign, operand, rfl, signed, spelled, same⟩
    refine ⟨item, rest, sign, rfl, ?_, rest, operand, [], by rw [List.append_nil], spelled, rfl,
      Language.changes_iff.2 same⟩
    rw [signed]
    cases sign with
    | plus => rfl
    | minus => rfl

theorem sound_signedChange {sign : Sign} {state after : State} {operation : Operation}
    (current : state.kind = .punctuation (Sign.mark sign))
    (h : (signedChange sign (pure ())).Reads state operation after) :
    ∃ items, state.Passes items after ∧ Language.signedChange items operation := by
  obtain ⟨operand, reads, same⟩ := reads_signedChange.1 h
  obtain ⟨items, passes, spelled⟩ := (recognizes_value _).sound _ _ _ reads
  have plain : state.kind.IsPlain := by
    rw [current]
    cases sign with
    | plus => decide
    | minus => decide
  refine ⟨_, (passes_advance plain).trans passes, signedChange_iff.2 ?_⟩
  exact ⟨_, items, sign, operand, rfl, current, spelled, same⟩

/-- What follows `column '=' column` if the columns agree. -/
theorem recognizes_afterSelf (other : Identifier) :
    (afterSelf other (pure ())).Recognizes (Language.signedChange <|> Language.unsignedChange)
      anything where
  sound := by
    intro state operation after h
    unfold afterSelf at h
    rw [reads_kind_bind] at h
    split at h
    · rename_i plus
      obtain ⟨items, passes, spelled⟩ := @sound_signedChange .plus _ _ _ plus h
      exact ⟨items, passes, .inl spelled⟩
    · rename_i minus
      obtain ⟨items, passes, spelled⟩ := @sound_signedChange .minus _ _ _ minus h
      exact ⟨items, passes, .inl spelled⟩
    · rename_i digits current
      obtain ⟨negative, rfl, rfl⟩ := reads_unsignedChange.1 h
      have plain : state.kind.IsPlain := by
        rw [current]
        exact ⟨by simp, by simp⟩
      refine ⟨_, passes_advance plain, .inr (Language.unsignedChange_iff.2 (.inl ?_))⟩
      exact ⟨_, digits, _, rfl, current, negative, magnitude_eq_iff.1 rfl, rfl⟩
    · -- A scalar at a bind marker is the marker, since no constant is written like one.
      rename_i isMarker
      obtain ⟨amount, mid, reads, reads'⟩ := reads_bind.1 h
      rw [reads_pure_bind] at reads'
      obtain ⟨rfl, rfl⟩ := reads_pure.1 reads'
      obtain ⟨items, passes, item, rfl, seen⟩ | ⟨items, passes, item, rfl, seen⟩ :
          (∃ items, state.Passes items after ∧ Language.constant items amount) ∨
            ∃ items, state.Passes items after ∧ Language.marker items amount := by
        obtain ⟨items, passes, spelled | spelled⟩ := (recognizes_scalar _).sound _ _ _ reads
        · exact .inl ⟨items, passes, spelled⟩
        · exact .inr ⟨items, passes, spelled⟩
      · obtain ⟨-, rfl, -⟩ := State.Passes.one_iff.1 passes
        have constant : Term.ofKind? state.kind = some amount := seen
        rw [isMarker] at constant
        exact absurd constant (by simp [Term.ofKind?])
      · exact ⟨[item], passes, .inr (.inr (map_iff.2 ⟨amount, ⟨item, rfl, seen⟩, rfl⟩))⟩
    · exact absurd h not_reads_expected
  complete := by
    rintro state items operation after passes (spelled | spelled) -
    · obtain ⟨item, rest, sign, operand, rfl, signed, spelled', same⟩ := signedChange_iff.1 spelled
      obtain ⟨-, rfl, passes'⟩ := State.Passes.cons_iff.1 passes
      have current : state.kind = .punctuation (Sign.mark sign) := signed
      have change : (signedChange sign (pure ())).Reads state operation after := by
        rw [State.next_of_ne (by rw [current]; cases sign <;> simp [Sign.mark])] at passes'
        exact reads_signedChange.2
          ⟨operand, (recognizes_value _).complete _ _ _ _ passes' spelled' trivial, same⟩
      unfold afterSelf
      rw [reads_kind_bind, current]
      cases sign with
      | plus => exact change
      | minus => exact change
    · rcases Language.unsignedChange_iff.1 spelled with
        ⟨item, digits, amount, rfl, current, negative, unsigned, rfl⟩ | ⟨item, rfl, isMarker, rfl⟩
      · obtain rfl := magnitude_eq_iff.2 unsigned
        obtain ⟨-, rfl, rfl⟩ := State.Passes.one_iff.1 passes
        have integer : state.kind = .integer digits := current
        unfold afterSelf
        rw [reads_kind_bind, integer]
        refine reads_unsignedChange.2 ⟨negative, rfl, State.next_of_ne ?_⟩
        rw [integer]
        simp
      · obtain ⟨-, rfl, rfl⟩ := State.Passes.one_iff.1 passes
        have marker : state.kind = .punctuation .questionMark := isMarker
        unfold afterSelf
        rw [reads_kind_bind, marker]
        refine reads_bind.2 ⟨.marker state.markers.count, _,
          (recognizes_scalar _).complete _ _ _ _ passes ?_ trivial, ?_⟩
        · exact .inr ⟨_, rfl, if_pos marker⟩
        · rw [reads_pure_bind]
          exact reads_pure.2 ⟨rfl, rfl⟩

theorem recognizes_selfAssignment (column : Identifier) :
    (selfAssignment column).Recognizes (do
      Language.itself column
      Language.signedChange <|> Language.unsignedChange) anything := by
  rw [selfAssignment_eq]
  simp only [Language.itself, bind_assoc]
  refine .here fun place => (recognizes_identifier _).andThen fun other => ?_
  -- The check of the columns is decided before the rest is read.
  rw [apply_ite (afterSelf other)]
  exact .ifHolds (recognizes_afterSelf other) fun _ _ _ => not_reads_afterSelf

theorem opens_itself (column : Identifier) :
    (Language.itself column).Opens anything (TokenKind.isNameLike · = true) :=
  opens_identifier.andThen

/-- No value opens with a name. -/
theorem not_isNameLike_of_opensValue {kind : TokenKind} (h : opensValue kind = true) :
    ¬ kind.isNameLike = true := by
  intro named
  cases kind with
  | keyword word =>
    have unreserved : word.isUnreserved = true := named
    simp only [opensValue, isScalar, Bool.or_eq_true, decide_eq_true_eq] at h
    rcases h with ((h | h) | h) | h
    · unfold Term.ofKind? at h
      split at h <;> simp_all [Keyword.isUnreserved, Keyword.isNativeType]
    · exact absurd h (by simp)
    · exact absurd h (by simp)
    · exact absurd h (by simp)
  | identifier name => simp [opensValue, isScalar, Term.ofKind?] at h
  | quotedName name => simp [opensValue, isScalar, Term.ofKind?] at h
  | string | integer | float | uuid | hex | punctuation | endOfInput =>
    simp [TokenKind.isNameLike, TokenKind.isUnreservedKeyword] at named

/-- The change of a column, by the tokens that tell its forms apart. -/
theorem change_eq (column : Identifier) : Language.change column =
    ((do
      mark .leftBracket
      let key ← Language.value
      mark .rightBracket
      mark .equal
      return .element key (← Language.value)) <|>
    (do
      mark .equal
      (do
        Language.itself column
        Language.signedChange <|> Language.unsignedChange) <|>
      (do
        let items ← Language.value
        (do
          mark .plus
          Language.itself column
          return .listPrepend items) <|>
        pure (.assign items)))) := by
  simp only [Language.change, bind_orElse]
  exact congrArg (fun rest : Phrase Operation => _ <|> rest) (orElse_reverse _ _ _)

theorem recognizes_assignment :
    assignment.Recognizes Language.assignment (· ≠ .punctuation .plus) := by
  -- The column is given back with its change whichever form the change has.
  have shape : ∀ column, (Language.change column >>= fun operation =>
      pure (column, operation) : Phrase (Identifier × Operation)) =
    ((do
      mark .leftBracket
      let operation ← (do
        let key ← Language.value
        mark .rightBracket
        mark .equal
        return .element key (← Language.value))
      return (column, operation)) <|>
    (do
      mark .equal
      (do
        let operation ← (do
          Language.itself column
          Language.signedChange <|> Language.unsignedChange)
        return (column, operation)) <|>
      (do
        let operation ← (do
          let items ← Language.value
          (do
            mark .plus
            Language.itself column
            return .listPrepend items) <|>
          pure (.assign items))
        return (column, operation)))) := by
    intro column
    simp only [change_eq, orElse_bind, bind_assoc, pure_bind]
  refine (recognizes_identifier _).andThen fun column => ?_
  rw [shape]
  refine .ifEat (by decide) ?_ ?_ ?_
  · exact (recognizes_elementAssignment.andThen fun _ => .pure _).narrow fun _ _ => trivial
  · refine (Recognizes.symbol _ rfl).andThen fun _ => .ifAt ?_ ?_ ?_ ?_
    · exact ((recognizes_selfAssignment column).andThen fun _ => .pure _).narrow fun _ _ => trivial
    · exact (recognizes_plainAssignment column).bind (fun _ => .pure _) fun _ => .pure _ fun _ => id
    · -- A name after the equality sign is the column itself, and no value opens with a name.
      exact .andThen (.andThen (opens_itself column))
    · refine .andThen (.andThen (opens_value.weaken (fun _ => id) fun kind => ?_))
      exact not_isNameLike_of_opensValue
  · exact .andThen (.ofKind (by decide))

theorem recognizes_assignments :
    assignments.Recognizes (commaSeparated Language.assignment) (· = .keyword .WHERE) := by
  refine .gather (by decide) ((recognizes_assignment.map some).narrow ?_) ?_
  · rintro _ (rfl | rfl)
    · decide
    · decide
  · rintro _ rfl
    decide

theorem recognizes_update : update.Recognizes Language.update (· ≠ .keyword .AND) := by
  refine recognizes_tableName.bind (fun table => ?_) ?_
  · refine recognizes_usingClause.bind (fun attributes => ?_) fun _ => .andThen (.ofKind ?_)
    · refine (Recognizes.keyword _ _).andThen fun _ => ?_
      refine recognizes_assignments.bind (fun operations => ?_) fun _ => .andThen (.ofKind rfl)
      refine (Recognizes.keyword _ _).andThen fun _ => ?_
      exact recognizes_relations.bind (fun _ => .pure _) fun _ => .pure _ fun _ => id
    · exact ⟨⟨by decide, by decide⟩, by decide⟩
  · refine fun _ => .bind (.orElse (.andThen (.ofKind ?_)) (.pure _ fun _ => id)) fun _ =>
      .andThen (.ofKind ?_)
    · decide
    · decide

end Grammar

end Cql
