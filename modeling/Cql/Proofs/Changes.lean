/-
USING clauses, INSERT and DELETE are read as the grammar has them.

An AND between two objectives is optional, and taken only in front of an objective.  So a clause must
not be followed by AND or by a further objective (`Grammar.endsSettings`).

* `Grammar.recognizes_usingClause`, `Grammar.recognizes_timestampClause` — USING clauses;
* `Grammar.recognizes_insertion`, `Grammar.recognizes_deletion` — the statements after their
  keywords.
-/
import Cql.Proofs.Values

namespace Cql.Grammar

open Rule Phrase

/-! ### USING clauses -/

theorem opens_objective : Language.objective.Opens anything (TokenKind.isObjective · = true) := by
  refine .andThen (.token fun item name h => ?_)
  by_cases named : item.kind.isObjective = true
  · exact named
  · simp [named] at h

theorem isPlain_of_isObjective {kind : TokenKind} (h : kind.isObjective = true) : kind.IsPlain := by
  constructor
  · rintro rfl
    exact absurd h (by decide)
  · rintro rfl
    exact absurd h (by decide)

/-- The state after the value of an objective: an AND in front of another objective is taken. -/
def afterValue (state : State) : State :=
  if state.kind = .keyword .AND ∧ (state.lexeme 1).kind.isObjective = true then state.advance
  else state

theorem reads_objectiveValue {state after : State} {name : TokenKind} {term : Term} :
    (objectiveValue name).Reads state term after ↔ ∃ mid,
      (integerOrMarker ("after " ++ name.render)).Reads state term mid ∧ after = afterValue mid := by
  -- What the rule does after the value depends on two tokens and takes at most one.
  have shape : ∀ term' mid, (do
      let current ← Rule.kind
      let next ← nextKind
      if current = .keyword .AND && next.isObjective then Rule.advance
      return term' : Rule Term).Reads mid term after ↔ term = term' ∧ after = afterValue mid := by
    intro term' mid
    rw [reads_kind_bind, reads_nextKind_bind]
    unfold afterValue
    by_cases both : mid.kind = .keyword .AND ∧ (mid.lexeme 1).kind.isObjective = true
    · simp [both, reads_pure]
    · have not_both : ¬ (mid.kind = .keyword .AND && (mid.lexeme 1).kind.isObjective) = true := by
        simpa using both
      simp [both, not_both, reads_pure]
  unfold objectiveValue
  rw [reads_bind]
  constructor
  · rintro ⟨term', mid, first, second⟩
    obtain ⟨rfl, rfl⟩ := (shape term' mid).1 second
    exact ⟨mid, first, rfl⟩
  · rintro ⟨mid, first, rfl⟩
    exact ⟨term, mid, first, (shape term mid).2 ⟨rfl, rfl⟩⟩

/-- An objective and its value, without an AND after it. -/
theorem recognizes_objective :
    (opened TokenKind.isObjective fun lexeme => do
      return (lexeme.kind, ← integerOrMarker ("after " ++ lexeme.kind.render))).Recognizes
      Language.objective anything := by
  have name : (accept (fun lexeme => if lexeme.kind.isObjective then some lexeme else none) ""
      "").Recognizes (token fun item =>
        if item.lexeme.kind.isObjective then some item.lexeme else none) anything := by
    refine .accept fun lexeme found h => ?_
    by_cases named : lexeme.kind.isObjective = true
    · exact isPlain_of_isObjective named
    · simp [named] at h
  refine (name.andThen fun lexeme => (recognizes_integerOrMarker _).andThen fun _ => .pure _).congr
    (fun _ _ _ => Iff.rfl) fun items setting => ?_
  unfold Language.objective
  rw [token_bind_iff, token_bind_iff]
  constructor
  · rintro ⟨item, rest, kind, rfl, seen, h⟩
    by_cases named : item.kind.isObjective = true
    · rw [if_pos named] at seen
      obtain rfl := Option.some.inj seen
      exact ⟨item, rest, item.lexeme, rfl, if_pos named, h⟩
    · simp [named] at seen
  · rintro ⟨item, rest, lexeme, rfl, seen, h⟩
    by_cases named : item.lexeme.kind.isObjective = true
    · rw [if_pos named] at seen
      obtain rfl := Option.some.inj seen
      exact ⟨item, rest, item.kind, rfl, if_pos named, h⟩
    · simp [named] at seen

/-- The objectives of a clause, none of them set yet. -/
def settings : Phrase (List (TokenKind × Term)) := do
  let first ← Language.objective
  let rest ← many do
    optionally (word .AND)
    Language.objective
  return first :: rest

theorem settings_cons_iff {items : List Numbered} {setting : TokenKind × Term}
    {others : List (TokenKind × Term)} :
    settings items (setting :: others) ↔ ∃ front rest, items = front ++ rest ∧
      Language.objective front setting ∧
        many (do optionally (word .AND); Language.objective) rest others := by
  constructor
  · rintro ⟨front, first, _, rfl, spelled, rest, others', last, rfl, spelled', rfl, same⟩
    obtain ⟨rfl, rfl⟩ := List.cons.inj same
    exact ⟨front, rest, by rw [List.append_nil], spelled, spelled'⟩
  · rintro ⟨front, rest, rfl, spelled, spelled'⟩
    exact ⟨front, setting, rest, rfl, spelled, rest, others, [], by rw [List.append_nil], spelled',
      rfl, rfl⟩

/-- How the grammar reads one setting after its keyword. -/
def setting (name : Lexeme) : Rule (TokenKind × Term) := do
  return (name.kind, ← objectiveValue name.kind)

theorem reads_setting {state after : State} {a : TokenKind × Term} :
    (opened TokenKind.isObjective setting).Reads state a after ↔ ∃ mid,
      (opened TokenKind.isObjective fun lexeme => do
        return (lexeme.kind, ← integerOrMarker ("after " ++ lexeme.kind.render))).Reads state a mid ∧
        after = afterValue mid := by
  rw [reads_opened]
  simp only [reads_opened, setting, reads_bind, reads_objectiveValue, reads_pure]
  constructor
  · rintro ⟨isOpen, term, _, ⟨mid, first, rfl⟩, rfl, rfl⟩
    exact ⟨mid, ⟨isOpen, term, mid, first, rfl, rfl⟩, rfl⟩
  · rintro ⟨_, ⟨isOpen, term, mid, first, rfl, rfl⟩, rfl⟩
    exact ⟨isOpen, term, _, ⟨_, first, rfl⟩, rfl, rfl⟩

/-- Settings after a first one, with or without an AND in front. -/
theorem many_of_settings {front items : List Numbered} {all : List (TokenKind × Term)}
    (separator : optionally (word .AND) front ()) (h : settings items all) :
    many (do optionally (word .AND); Language.objective) (front ++ items) all := by
  cases all with
  | nil =>
    obtain ⟨_, _, _, _, _, _, _, _, _, _, _, same⟩ := h
    exact absurd same (by simp)
  | cons first others =>
    obtain ⟨middle, rest, rfl, spelled, spelled'⟩ := settings_cons_iff.1 h
    rw [← List.append_assoc]
    exact .more ⟨front, (), middle, rfl, separator, spelled⟩ spelled'

/-- What is read of a clause is a stretch of settings. -/
theorem settings_of_readsMany {state after : State} {all : List (TokenKind × Term)}
    (h : ReadsMany TokenKind.isObjective (fun _ => true) setting state all after)
    (named : state.kind.isObjective = true) :
    ∃ items, state.Passes items after ∧ settings items all := by
  induction h with
  | @stop state closed =>
    obtain ⟨token, rest, ahead, -⟩ := State.ahead_of_inside (isPlain_of_isObjective named).2
    rw [State.kind_of_ahead ahead, closed token (by simp [ahead])] at named
    exact absurd named (by simp)
  | last ahead isOpen first ends => exact absurd ends (by simp)
  | @more state after' after token rest a all ahead isOpen first _ others ih =>
    have current : state.lexeme 0 = token.toLexeme := by
      simp [State.lexeme, TokenStream.peek, ahead]
    rw [← current] at first
    obtain ⟨mid, reads, rfl⟩ := reads_setting.1 (reads_opened.2 ⟨named, first⟩)
    obtain ⟨front, passes, spelled⟩ := recognizes_objective.sound _ _ _ reads
    unfold afterValue at ih others
    by_cases both : mid.kind = .keyword .AND ∧ (mid.lexeme 1).kind.isObjective = true
    · -- An AND was taken because another objective follows it.
      rw [if_pos both] at ih others
      have plain : mid.kind.IsPlain := by
        rw [both.1]
        decide
      obtain ⟨items, passes', spelled'⟩ := ih (by rw [State.kind_advance plain.2]; exact both.2)
      refine ⟨_, passes.trans ((passes_advance plain).trans passes'), ?_⟩
      have separator : optionally (word .AND) [⟨mid.lexeme 0, mid.markers.count⟩] () :=
        .inl (ofKind_iff.2 ⟨_, rfl, both.1⟩)
      exact settings_cons_iff.2 ⟨front, _, rfl, spelled, many_of_settings separator spelled'⟩
    · rw [if_neg both] at ih others
      by_cases next : mid.kind.isObjective = true
      · obtain ⟨items, passes', spelled'⟩ := ih next
        have separator : optionally (word .AND) [] () := .inr ⟨rfl, rfl⟩
        exact ⟨_, passes.trans passes', settings_cons_iff.2 ⟨front, items, rfl, spelled,
          many_of_settings separator spelled'⟩⟩
      · -- Neither an AND nor an objective comes next, so the list ends here.
        have none : all = [] := by
          by_cases none : all = []
          · exact none
          · exact absurd (others.opens_of_ne_nil none) next
        subst none
        have same := reads_many.1 (reads_many.2 others)
        cases same with
        | stop closed =>
          refine ⟨front, passes, settings_cons_iff.2 ⟨front, [], by simp, spelled, .none⟩⟩

/-- The tokens that can follow a clause. -/
def endsSettings (kind : TokenKind) : Prop :=
  kind ≠ .keyword .AND ∧ kind.isObjective = false

/-- A stretch of settings is read as a clause. -/
theorem readsMany_of_settings {items : List Numbered} {all : List (TokenKind × Term)}
    {state after : State} (h : settings items all) (passes : state.Passes items after)
    (ends : endsSettings after.kind) :
    ReadsMany TokenKind.isObjective (fun _ => true) setting state all after := by
  induction all generalizing items state with
  | nil =>
    obtain ⟨_, _, _, _, _, _, _, _, _, _, _, same⟩ := h
    exact absurd same (by simp)
  | cons a all ih =>
    obtain ⟨front, rest, rfl, spelled, others⟩ := settings_cons_iff.1 h
    obtain ⟨mid, passes₁, passes₂⟩ := passes.split
    have reads := recognizes_objective.complete _ _ _ _ passes₁ spelled trivial
    -- It is left to see whether the rule takes an AND after the value.
    have first := reads_opened.1 (reads_setting.2 ⟨mid, reads, rfl⟩)
    have inside : state.kind ≠ .endOfInput := (isPlain_of_isObjective first.1).2
    refine .cons inside first.1 first.2 rfl ?_
    unfold afterValue
    cases others with
    | none =>
      obtain rfl := State.Passes.nil_iff.1 passes₂
      rw [if_neg fun both => ends.1 both.1]
      exact .nil ends.2
    | @more middle last _ _ next others =>
      obtain ⟨separator, u, middle, rfl, isSeparator, spelled'⟩ := next
      have settings' := settings_cons_iff.2 ⟨middle, last, rfl, spelled', others⟩
      have opens := (opens_objective _ _ (opening last after.kind) spelled' trivial)
      rw [← opening_append] at opens
      rw [List.append_assoc] at passes₂
      rcases isSeparator with isAnd | ⟨rfl, -⟩
      · obtain ⟨item, rfl, same⟩ := ofKind_iff.1 isAnd
        obtain ⟨inside, rfl, passes₃⟩ := State.Passes.cons_iff.1 passes₂
        have current : mid.kind = .keyword .AND := same
        rw [State.next_of_ne (by rw [current]; decide)] at passes₃
        have passes₄ : mid.advance.Passes (middle ++ last) after := passes₃
        rw [← passes₄.kind_eq, State.kind_advance inside] at opens
        rw [if_pos ⟨current, opens⟩]
        exact ih settings' passes₄
      · rw [List.nil_append] at passes₂
        rw [← passes₂.kind_eq] at opens
        rw [if_neg]
        · exact ih settings' passes₂
        · rintro ⟨isAnd, -⟩
          rw [isAnd] at opens
          exact absurd opens (by decide)

/-- Objectives are settings, of which the later ones replace the earlier ones. -/
theorem objectives_eq : Language.objectives = (fun all : List (TokenKind × Term) =>
    all.foldl (fun attributes setting => attributes.set setting.1 setting.2) .none) <$> settings := by
  simp only [Language.objectives, settings, map_bind, map_pure]

theorem recognizes_objectives : objectives.Recognizes Language.objectives endsSettings := by
  have reads_objectives : ∀ state attributes after, objectives.Reads state attributes after ↔
      state.kind.isObjective = true ∧ ∃ all,
        ReadsMany TokenKind.isObjective (fun _ => true) setting state all after ∧
          attributes = all.foldl (fun attributes setting => attributes.set setting.1 setting.2)
            .none := by
    intro state attributes after
    unfold objectives
    rw [reads_kind_bind]
    by_cases named : state.kind.isObjective = true
    · simp only [named, Bool.not_true, Bool.false_eq_true, if_false, reads_bind, reads_many,
        reads_pure, true_and]
      constructor
      · rintro ⟨all, mid, reads, rfl, rfl⟩
        exact ⟨all, reads, rfl⟩
      · rintro ⟨all, reads, rfl⟩
        exact ⟨all, after, reads, rfl, rfl⟩
    · simp only [named, Bool.not_false, if_true, reads_bind]
      constructor
      · rintro ⟨u, mid, reads, -⟩
        exact absurd reads not_reads_expected
      · rintro ⟨impossible, -⟩
        exact absurd impossible (by simp)
  rw [objectives_eq]
  constructor
  · intro state attributes after h
    obtain ⟨named, all, reads, rfl⟩ := (reads_objectives _ _ _).1 h
    obtain ⟨items, passes, spelled⟩ := settings_of_readsMany reads named
    exact ⟨items, passes, map_iff.2 ⟨all, spelled, rfl⟩⟩
  · intro state items attributes after passes spelled ends
    obtain ⟨all, spelled', rfl⟩ := map_iff.1 spelled
    have opens : settings.Opens anything (TokenKind.isObjective · = true) := opens_objective.andThen
    have named := opens _ _ after.kind spelled' trivial
    rw [← passes.kind_eq] at named
    exact (reads_objectives _ _ _).2 ⟨named, all, readsMany_of_settings spelled' passes ends, rfl⟩

/-- USING clauses are read as the grammar has them, unless a further USING, AND or objective
follows. -/
theorem recognizes_usingClause :
    usingClause.Recognizes Language.usingClause fun kind =>
      endsSettings kind ∧ kind ≠ .keyword .USING := by
  refine .ifWord (recognizes_objectives.narrow fun _ follows => follows.1) (.pure _) ?_
  exact .pure _ fun _ follows => follows.2

theorem recognizes_timestampClause :
    timestampClause.Recognizes Language.timestampClause (· ≠ .keyword .USING) := by
  refine .ifWord ?_ (.pure _) (.pure _ fun _ => id)
  refine (Recognizes.keyword _ _).andThen fun _ => ?_
  exact ((recognizes_integerOrMarker _).andThen fun _ => .pure _).narrow fun _ _ => trivial

/-! ### INSERT and DELETE -/

theorem recognizes_insertion :
    insertion.Recognizes Language.insertion fun kind =>
      endsSettings kind ∧ kind ≠ .keyword .USING := by
  refine (Recognizes.keyword _ _).andThen fun _ => ?_
  refine recognizes_tableName.bind (fun table => ?_) fun _ => .andThen (.ofKind (by decide))
  refine (Recognizes.symbol _ rfl).andThen fun _ => ?_
  refine (Recognizes.twoOrMore _ (recognizes_identifier _)).bind (fun columns => ?_)
    fun _ => .andThen (.ofKind (by decide))
  refine (Recognizes.symbol _ rfl).andThen fun _ => (Recognizes.keyword _ _).andThen fun _ => ?_
  refine (Recognizes.symbol _ rfl).andThen fun _ => ?_
  refine (Recognizes.twoOrMore _ (recognizes_value _)).bind (fun values => ?_)
    fun _ => .andThen (.ofKind (by decide))
  refine (Recognizes.symbol _ rfl).andThen fun _ => ?_
  exact recognizes_usingClause.bind (fun _ => .pure _) fun _ => .pure _ fun _ => id

/-- An element of a column, after the opening bracket. -/
theorem recognizes_elementKey : elementKey.Recognizes (do
    let key ← Language.value
    mark .rightBracket
    return key) anything :=
  (recognizes_value _).andThen fun _ => (Recognizes.symbol _ rfl).andThen fun _ => .pure _

theorem opens_deletionTarget :
    Language.deletionTarget.Opens anything (TokenKind.isNameLike · = true) :=
  .orElse opens_identifier.andThen opens_identifier.andThen

theorem recognizes_deletionTarget :
    deletionTarget.Recognizes Language.deletionTarget (· ≠ .punctuation .leftBracket) := by
  have shape : Language.deletionTarget = (do
      let column ← Language.identifier
      (do
        mark .leftBracket
        let key ← (do
          let key ← Language.value
          mark .rightBracket
          return key)
        return ⟨column, some key⟩) <|>
      pure ⟨column, none⟩) := by
    simp only [Language.deletionTarget, bind_orElse, bind_assoc, pure_bind]
  rw [shape]
  refine (recognizes_identifier _).andThen fun column => .ifEat (by decide) ?_ (.pure _) ?_
  · exact (recognizes_elementKey.andThen fun _ => .pure _).narrow fun _ _ => trivial
  · exact .pure _ fun _ => id

/-- The rest of DELETE from FROM on. -/
theorem recognizes_deletionFrom (targets : List DeletionTarget) :
    (do
      keyword .FROM "in DELETE"
      let table ← tableName
      let attributes ← timestampClause
      keyword .WHERE "in DELETE"
      let relations ← relations
      return ⟨table, targets, attributes, relations⟩ : Rule Deletion).Recognizes (do
      word .FROM
      let table ← Language.tableName
      let attributes ← Language.timestampClause
      word .WHERE
      let relations ← Language.relations
      return ⟨table, targets, attributes, relations⟩) (· ≠ .keyword .AND) := by
  refine (Recognizes.keyword _ _).andThen fun _ => recognizes_tableName.bind (fun table => ?_) ?_
  · refine recognizes_timestampClause.bind (fun attributes => ?_) fun _ => .andThen (.ofKind ?_)
    · refine (Recognizes.keyword _ _).andThen fun _ => ?_
      exact recognizes_relations.bind (fun _ => .pure _) fun _ => .pure _ fun _ => id
    · decide
  · refine fun _ => .bind (.orElse (.andThen (.ofKind ?_)) (.pure _ fun _ => id)) fun _ =>
      .andThen (.ofKind ?_)
    · decide
    · decide

theorem recognizes_deletion :
    deletion.Recognizes Language.deletion (· ≠ .keyword .AND) := by
  have targets : (commaSeparated deletionTarget).Recognizes
      (commaSeparated Language.deletionTarget) (· = .keyword .FROM) := by
    refine .commaSeparated (recognizes_deletionTarget.narrow ?_) ?_
    · rintro _ (rfl | rfl)
      · decide
      · decide
    · rintro _ rfl
      decide
  have nothing : (pure [] : Rule (List DeletionTarget)).Recognizes (pure []) (· = .keyword .FROM) :=
    .pure []
  unfold Language.deletion
  rw [orElse_comm, orElse_bind]
  refine .ifAt (nothing.bind recognizes_deletionFrom fun _ => .andThen (.ofKind rfl))
    (targets.bind recognizes_deletionFrom fun _ => .andThen (.ofKind rfl)) ?_ ?_
  · exact .bind (.pure _ fun _ => id) fun _ => .andThen (.ofKind rfl)
  · exact .andThen (Opens.avoids (Opens.separated opens_deletionTarget) rfl)

end Cql.Grammar
